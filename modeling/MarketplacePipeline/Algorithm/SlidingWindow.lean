import MarketplacePipeline.Algorithm.Schedule
import Mathlib.Algebra.BigOperators.Group.Finset.Piecewise
import Mathlib.Algebra.Order.BigOperators.Group.Finset
import Mathlib.Data.Finset.Max
import Mathlib.Data.List.Count
import Mathlib.Order.Lattice

/-!
# Sliding windows

A limiter admits a request exactly if fewer than `limit` of the admitted requests with its key still
count.  `Window.young now t` says that at `now` a request of the instant `t` still counts; the
window of an instant `s` are the instants from `s` on at which `s` is young.

`Window.serve` is the limiter that remembers every request it let through (`Log`), in front of a
`Gate` that each request comes to: some requests pass and some are blocked whatever was admitted,
the others are counted under a key.  For each key it never lets more than `limit` requests through
in a window (`bounded_timesOf_run`); for all requests together `bounded_allTimes_iff` says when it
does not.  A limiter with less memory is shown `Exact` against it, and `Exact.answers_eq` transfers
its decisions.
-/

namespace MarketplacePipeline.SlidingWindow

open Schedule

variable {α κ ρ σ : Type*}

/-- Which instants still count. -/
structure Window (α : Type*) [LinearOrder α] where
  young : (now t : α) → Bool
  young_self : ∀ t, young t t = true
  mono : ∀ {now t now' t'}, young now t = true → t ≤ t' → now' ≤ now → young now' t' = true

/-- How a request is treated. -/
inductive Gate (κ : Type*)
  | pass
  | block
  | limit (key : κ)

/-- The key under which a request is counted. -/
def Gate.key : Gate κ → Option κ
  | .limit key => some key
  | _ => none

/-- The requests that were let through. -/
abbrev Log (κ α : Type*) := List (Option κ × α)

/-- The instants of all requests. -/
def allTimes (log : Log κ α) : List α := log.map Prod.snd

section Keys

variable [DecidableEq κ]

/-- The instants of the requests with a key. -/
def timesOf (key : κ) (log : Log κ α) : List α := (log.filter (·.1 = some key)).map Prod.snd

/-- The instants of the requests that were not counted. -/
def openTimes (log : Log κ α) : List α := (log.filter (·.1 = none)).map Prod.snd

theorem timesOf_concat (key : κ) (log : Log κ α) (e : Option κ × α) :
    timesOf key (log ++ [e]) = timesOf key log ++ if e.1 = some key then [e.2] else [] := by
  unfold timesOf
  rw [List.filter_append, List.map_append]
  by_cases h : e.1 = some key
  · simp [h]
  · simp [h]

theorem timesOf_concat_key (log : Log κ α) (key : κ) (t : α) :
    (fun key' => timesOf key' (log ++ [(some key, t)])) =
      Function.update (fun key' => timesOf key' log) key (timesOf key log ++ [t]) := by
  funext key'
  rw [timesOf_concat]
  by_cases h : key' = key
  · subst h
    rw [Function.update_self, if_pos rfl]
  · rw [Function.update_of_ne h, if_neg fun heq => h (Option.some.inj heq).symm, List.append_nil]

theorem timesOf_concat_none (log : Log κ α) (t : α) :
    (fun key => timesOf key (log ++ [(none, t)])) = fun key => timesOf key log := by
  funext key
  rw [timesOf_concat, if_neg (by simp), List.append_nil]

/-- Every request has a key or was not counted. -/
theorem countP_allTimes (p : α → Bool) {keys : Finset κ} {log : Log κ α}
    (hkeys : ∀ e ∈ log, ∀ key, e.1 = some key → key ∈ keys) :
    (allTimes log).countP p =
      (∑ key ∈ keys, (timesOf key log).countP p) + (openTimes log).countP p := by
  induction log with
  | nil => simp [allTimes, timesOf, openTimes]
  | cons e log ih =>
    have hrest := ih fun e he => hkeys e (List.mem_cons_of_mem _ he)
    obtain ⟨owner, t⟩ := e
    unfold allTimes timesOf openTimes at hrest ⊢
    rw [List.map_cons, List.countP_cons, hrest]
    dsimp only
    cases owner with
    | none => simp [List.countP_cons, Nat.add_assoc]
    | some key =>
      have hkey : key ∈ keys := hkeys (some key, t) List.mem_cons_self key rfl
      -- the entry adds to the summand of its own key only
      have hsum : (∑ key' ∈ keys, ((((some key, t) :: log).filter (·.1 = some key')).map
          Prod.snd).countP p) =
          (∑ key' ∈ keys, ((log.filter (·.1 = some key')).map Prod.snd).countP p) +
            ∑ key' ∈ keys, if key' = key then (if p t then 1 else 0) else 0 := by
        rw [← Finset.sum_add_distrib]
        apply Finset.sum_congr rfl
        intro key' _
        by_cases h : key' = key
        · subst h
          simp [List.countP_cons]
        · simp [h, Ne.symm h]
      rw [hsum, Finset.sum_ite_eq', if_pos hkey]
      have hopen : ((some key, t) :: log).filter (·.1 = none) = log.filter (·.1 = none) := by
        simp
      rw [hopen]
      omega

end Keys

namespace Window

variable [LinearOrder α] (w : Window α) (limit : ℤ)

/-- No window holds more than `limit` of the instants. -/
def Bounded (times : List α) : Prop :=
  ∀ s, (times.countP (fun t => decide (s ≤ t) && w.young t s) : ℤ) ≤ limit

variable {w limit} {times : List α} {t : α}

theorem Bounded.of_prefix {pre : List α} (hpre : pre <+: times) (h : w.Bounded limit times) :
    w.Bounded limit pre := by
  intro s
  have hle := List.Sublist.countP_le (p := fun t => decide (s ≤ t) && w.young t s) hpre.sublist
  have hs := h s
  omega

/-- One more instant, behind all others: it is the last of its windows, and the oldest instant that
is young at it opens the fullest of them. -/
theorem bounded_concat (hle : ∀ x ∈ times, x ≤ t) : w.Bounded limit (times ++ [t]) ↔
    w.Bounded limit times ∧ (times.countP (w.young t) : ℤ) < limit := by
  constructor
  · intro h
    refine ⟨h.of_prefix (List.prefix_append _ _), ?_⟩
    -- the window that opens at the oldest instant that is young at `t` holds all that are
    obtain ⟨s, hst, hyoung, hleast⟩ : ∃ s, s ≤ t ∧ w.young t s = true ∧
        ∀ x ∈ times, w.young t x = true → s ≤ x := by
      by_cases hnone : (times.filter (w.young t)).toFinset.Nonempty
      · obtain ⟨s, hs, hmin⟩ := Finset.exists_min_image _ id hnone
        have hs' := List.mem_filter.mp (List.mem_toFinset.mp hs)
        refine ⟨s, hle s hs'.1, hs'.2, fun x hx hyoung => hmin x ?_⟩
        exact List.mem_toFinset.mpr (List.mem_filter.mpr ⟨hx, hyoung⟩)
      · refine ⟨t, le_rfl, w.young_self t, fun x hx hyoung => absurd ⟨x, ?_⟩ hnone⟩
        exact List.mem_toFinset.mpr (List.mem_filter.mpr ⟨hx, hyoung⟩)
    have hmono : times.countP (w.young t) ≤
        times.countP fun x => decide (s ≤ x) && w.young x s := by
      apply List.countP_mono_left
      intro x hx hxyoung
      have hsx := hleast x hx hxyoung
      simp [hsx, w.mono hyoung le_rfl (hle x hx)]
    have hs := h s
    rw [List.countP_append, List.countP_singleton] at hs
    simp only [hst, hyoung, decide_true, Bool.and_self, if_true] at hs
    omega
  · rintro ⟨h, hroom⟩ s
    -- a window with `t` in it only holds instants that are young at `t`
    rw [List.countP_append, List.countP_singleton]
    split_ifs with hin
    · have hyoung : w.young t s = true := by
        simp only [Bool.and_eq_true] at hin
        exact hin.2
      have hmono : times.countP (fun x => decide (s ≤ x) && w.young x s) ≤
          times.countP (w.young t) := by
        apply List.countP_mono_left
        intro x _ hx
        simp only [Bool.and_eq_true, decide_eq_true_eq] at hx
        exact w.mono hyoung hx.1 le_rfl
      omega
    · exact h s

/-! ### The limiter that remembers everything -/

section Serve

variable [DecidableEq κ] (w limit) (gate : ρ → Gate κ) (time : ρ → α)

/-- Whether a request is let through. -/
def admits (log : Log κ α) : Gate κ → α → Bool
  | .pass, _ => true
  | .block, _ => false
  | .limit key, now => decide (((timesOf key log).countP (w.young now) : ℤ) < limit)

/-- The next request. -/
def serve (r : ρ) (log : Log κ α) : Bool × Log κ α :=
  if w.admits limit log (gate r) (time r) then (true, log ++ [((gate r).key, time r)])
  else (false, log)

/-- The log after a request. -/
abbrev next (r : ρ) (log : Log κ α) : Log κ α := (w.serve limit gate time r log).2

variable {w limit gate time} {r : ρ} {log : Log κ α} {rs : List ρ}

theorem serve_of_admits (h : w.admits limit log (gate r) (time r) = true) :
    w.serve limit gate time r log = (true, log ++ [((gate r).key, time r)]) := if_pos h

theorem serve_of_not_admits (h : w.admits limit log (gate r) (time r) = false) :
    w.serve limit gate time r log = (false, log) :=
  if_neg (by rw [h]; exact Bool.false_ne_true)

theorem serve_fst : (w.serve limit gate time r log).1 = w.admits limit log (gate r) (time r) := by
  unfold serve
  split_ifs with h
  · exact h.symm
  · exact (eq_false_of_ne_true h).symm

/-- In a history, all that was let through lies before the next request. -/
theorem meets_le (hsorted : (rs.map time).Pairwise (· ≤ ·))
    (hlog : ∀ t ∈ allTimes log, ∀ r ∈ rs, t ≤ time r) :
    Meets (w.next limit gate time) (fun r log => ∀ t ∈ allTimes log, t ≤ time r) log rs := by
  -- only instants of requests that have come are in the log
  induction rs generalizing log with
  | nil => trivial
  | cons r rs ih =>
    obtain ⟨hr, hrest⟩ := List.pairwise_cons.mp hsorted
    refine ⟨fun t ht => hlog t ht r List.mem_cons_self, ih hrest fun t ht r' hr' => ?_⟩
    unfold next serve at ht
    split_ifs at ht
    · unfold allTimes at ht
      rw [List.map_append, List.mem_append] at ht
      rcases ht with ht | ht
      · exact hlog t ht r' (List.mem_cons_of_mem _ hr')
      · obtain rfl : t = time r := by simpa using ht
        exact hr _ (List.mem_map_of_mem hr')
    · exact hlog t ht r' (List.mem_cons_of_mem _ hr')

theorem meets_le_nil (hsorted : (rs.map time).Pairwise (· ≤ ·)) :
    Meets (w.next limit gate time) (fun r log => ∀ t ∈ allTimes log, t ≤ time r) [] rs :=
  meets_le hsorted (by simp [allTimes])

/-- **When all requests together stay within the limit**: a request that is let through comes when
fewer than `limit` of all requests still count. -/
theorem bounded_allTimes_iff (hlimit : 0 ≤ limit) (hsorted : (rs.map time).Pairwise (· ≤ ·)) :
    w.Bounded limit (allTimes (run (w.next limit gate time) [] rs)) ↔
      Meets (w.next limit gate time) (fun r log => w.admits limit log (gate r) (time r) = true →
        ((allTimes log).countP (w.young (time r)) : ℤ) < limit) [] rs := by
  have hstep : ∀ r (log : Log κ α), (∀ t ∈ allTimes log, t ≤ time r) →
      (w.Bounded limit (allTimes (w.next limit gate time r log)) ↔
        w.Bounded limit (allTimes log) ∧ (w.admits limit log (gate r) (time r) = true →
          ((allTimes log).countP (w.young (time r)) : ℤ) < limit)) := by
    intro r log hle
    unfold next
    cases hadmits : w.admits limit log (gate r) (time r) with
    | true =>
      rw [serve_of_admits hadmits]
      unfold allTimes at hle ⊢
      rw [List.map_append, List.map_singleton, bounded_concat hle]
      simp
    | false =>
      rw [serve_of_not_admits hadmits]
      simp
  have hnil : w.Bounded limit (allTimes ([] : Log κ α)) := by
    intro s
    simpa [allTimes] using hlimit
  rw [run_iff_meets (I := fun _ => True) (P := fun log => w.Bounded limit (allTimes log))
    (fun _ _ _ _ => trivial) (fun r log _ hle => hstep r log hle) trivial (meets_le_nil hsorted)]
  exact and_iff_right hnil

variable (w gate) in
/-- **No key exceeds the limit** in any window. -/
theorem bounded_timesOf_run (hlimit : 0 ≤ limit) (hsorted : (rs.map time).Pairwise (· ≤ ·))
    (key : κ) : w.Bounded limit (timesOf key (run (w.next limit gate time) [] rs)) := by
  have hstep : ∀ r (log : Log κ α), w.Bounded limit (timesOf key log) →
      (∀ t ∈ allTimes log, t ≤ time r) →
      w.Bounded limit (timesOf key (w.next limit gate time r log)) := by
    intro r log hbounded hle
    unfold next
    cases hadmits : w.admits limit log (gate r) (time r) with
    | false =>
      rw [serve_of_not_admits hadmits]
      exact hbounded
    | true =>
      rw [serve_of_admits hadmits, timesOf_concat]
      split_ifs with hkey
      · -- a request that is counted under the key found room there
        have hmem : ∀ t ∈ timesOf key log, t ≤ time r := by
          intro t ht
          obtain ⟨e, he, rfl⟩ := List.mem_map.mp ht
          exact hle _ (List.mem_map_of_mem (List.mem_of_mem_filter he))
        refine (bounded_concat hmem).mpr ⟨hbounded, ?_⟩
        cases hgate : gate r with
        | limit key' =>
          rw [hgate] at hkey hadmits
          obtain rfl : key' = key := Option.some.inj hkey
          exact of_decide_eq_true hadmits
        | pass | block =>
          rw [hgate] at hkey
          cases hkey
      · rw [List.append_nil]
        exact hbounded
  have hnil : w.Bounded limit (timesOf key ([] : Log κ α)) := by
    intro s
    simpa [timesOf] using hlimit
  exact invariant_run_of_meets hstep hnil (meets_le_nil hsorted)

/-! ### What decides -/

/-- The log is what was let through. -/
theorem run_next (log : Log κ α) (rs : List ρ) : run (w.next limit gate time) log rs =
    log ++ ((answers (w.serve limit gate time) log rs).filter (·.2)).map
      fun e => ((gate e.1).key, time e.1) := by
  induction rs generalizing log with
  | nil => simp [answers]
  | cons r rs ih =>
    rw [run_cons, ih, answers, List.filter_cons]
    unfold next
    cases hadmits : w.admits limit log (gate r) (time r) with
    | true =>
      rw [serve_of_admits hadmits]
      simp
    | false =>
      rw [serve_of_not_admits hadmits]
      simp

/-- A request that is not let through is forgotten: it could have been left out. -/
theorem answers_of_denied {pre : List ρ} (post : List ρ)
    (hdenied : (w.serve limit gate time r (run (w.next limit gate time) log pre)).1 = false) :
    answers (w.serve limit gate time) log (pre ++ r :: post) =
        answers (w.serve limit gate time) log pre ++ (r, false) ::
          answers (w.serve limit gate time) (run (w.next limit gate time) log pre) post ∧
      answers (w.serve limit gate time) log (pre ++ post) =
        answers (w.serve limit gate time) log pre ++
          answers (w.serve limit gate time) (run (w.next limit gate time) log pre) post := by
  refine ⟨?_, answers_append _ _ _⟩
  rw [answers_append_cons, hdenied, run_append]
  rw [serve_fst] at hdenied
  have hsame : run (w.next limit gate time) (run (w.next limit gate time) log pre) [r] =
      run (w.next limit gate time) log pre := by
    rw [run_cons, run_nil, next, serve_of_not_admits hdenied]
  rw [hsame]

variable (w limit gate time) in
/-- The requests with a key are answered as if there were no others. -/
theorem answers_filter_key {key : κ} {log' : Log κ α} (h : timesOf key log = timesOf key log')
    (rs : List ρ) :
    (answers (w.serve limit gate time) log rs).filter (fun e => (gate e.1).key = some key) =
      answers (w.serve limit gate time) log' (rs.filter fun r => (gate r).key = some key) := by
  -- the requests of other keys leave the instants of this key alone
  induction rs generalizing log log' with
  | nil => rfl
  | cons r rs ih =>
    rw [answers, List.filter_cons, List.filter_cons]
    by_cases hkey : (gate r).key = some key
    · have hgate : gate r = .limit key := by
        cases hr : gate r with
        | limit key' =>
          rw [hr] at hkey
          rw [Option.some.inj hkey]
        | pass | block =>
          rw [hr] at hkey
          cases hkey
      -- it is let through alike, as only the instants of its key decide
      have hadmits : w.admits limit log (gate r) (time r) =
          w.admits limit log' (gate r) (time r) := by
        rw [hgate, admits, admits, h]
      rw [if_pos (by simpa using hkey), if_pos (by simpa using hkey), answers, serve_fst, serve_fst,
        hadmits]
      congr 1
      apply ih
      unfold serve
      rw [hadmits]
      split_ifs
      · rw [timesOf_concat, timesOf_concat, h]
      · exact h
    · -- it leaves the instants of the key alone
      rw [if_neg (by simpa using hkey), if_neg (by simpa using hkey)]
      apply ih
      unfold serve
      split_ifs
      · rw [timesOf_concat, if_neg hkey, List.append_nil]
        exact h
      · exact h

/-- The requests that are not counted are those that pass. -/
theorem openTimes_run (rs : List ρ) : openTimes (run (w.next limit gate time) [] rs) =
    (rs.filter fun r => gate r matches .pass).map time := by
  -- the log grows at its end, like the list of the requests
  induction rs using List.reverseRecOn with
  | nil => rfl
  | append_singleton rs r ih =>
    rw [run_append, run_cons, run_nil, List.filter_append, List.map_append, ← ih]
    unfold next serve openTimes
    cases hgate : gate r with
    | pass => simp [admits, hgate, Gate.key]
    | block => simp [admits, hgate]
    | limit key =>
      split_ifs
      · simp [hgate, Gate.key]
      · simp [hgate]

/-- The keys of a log are keys of its requests. -/
theorem exists_of_mem_run {e : Option κ × α} (he : e ∈ run (w.next limit gate time) [] rs) :
    ∃ r ∈ rs, (gate r).key = e.1 ∧ time r = e.2 := by
  rw [run_next, List.nil_append, List.mem_map] at he
  obtain ⟨a, ha, rfl⟩ := he
  refine ⟨a.1, ?_, rfl, rfl⟩
  rw [← map_fst_answers (w.serve limit gate time) [] rs]
  exact List.mem_map_of_mem (List.mem_of_mem_filter ha)

end Serve

/-! ### Limiters with less memory -/

section Exact

variable (w limit) (allow : κ → α → σ → Bool × σ)

/-- A limiter behind a gate. -/
def gated (gate : ρ → Gate κ) (time : ρ → α) (r : ρ) (s : σ) : Bool × σ :=
  match gate r with
  | .pass => (true, s)
  | .block => (false, s)
  | .limit key => allow key (time r) s

/-- The instants of the requests that a limiter behind a gate lets through. -/
def passedTimes (gate : ρ → Gate κ) (time : ρ → α) (s : σ) (rs : List ρ) : List α :=
  ((answers (gated allow gate time) s rs).filter (·.2)).map fun e => time e.1

variable {allow} in
/-- The windows of a component whose answers, as far as they let a request through, are those of a
limiter behind a gate. -/
theorem bounded_passedTimes {β : Type*} {gate : ρ → Gate κ} {time : ρ → α} {s : σ}
    {f : ρ → σ → β × σ} {g : β → Bool}
    (hf : ∀ r s, (g (f r s).1, (f r s).2) = gated allow gate time r s) (rs : List ρ) :
    w.Bounded limit (passedTimes allow gate time s rs) ↔
      ∀ start, ((answers f s rs).countP fun e =>
        g e.2 && (decide (start ≤ time e.1) && w.young (time e.1) start) : ℤ) ≤ limit := by
  have hanswers : answers (gated allow gate time) s rs =
      (answers f s rs).map fun e => (e.1, g e.2) := by
    rw [map_answers]
    congr 1
    funext r s
    exact (hf r s).symm
  refine forall_congr' fun start => ?_
  rw [passedTimes, hanswers, List.countP_map, List.countP_filter, List.countP_map]
  have hcount : ∀ l : List (ρ × β), l.countP ((fun e : ρ × Bool =>
      ((fun t => decide (start ≤ t) && w.young t start) ∘ fun e : ρ × Bool => time e.1) e && e.2) ∘
        fun e => (e.1, g e.2)) =
      l.countP fun e => g e.2 && (decide (start ≤ time e.1) && w.young (time e.1) start) := by
    intro l
    apply List.countP_congr
    intro e _
    simp [and_comm]
  rw [hcount]

variable [DecidableEq κ]

/-- A limiter decides as if it remembered everything: `Knows now s times` says that after the
instant `now` the state `s` tells all that can matter about the admitted requests of every key. -/
structure Exact (Knows : α → σ → (κ → List α) → Prop) : Prop where
  allow_fst : ∀ {now key t s times}, Knows now s times → now ≤ t →
    (allow key t s).1 = decide (((times key).countP (w.young t) : ℤ) < limit)
  knows_allow : ∀ {now key t s times}, Knows now s times → now ≤ t →
    Knows t (allow key t s).2
      (if (allow key t s).1 then Function.update times key (times key ++ [t]) else times)

variable {w limit allow} {Knows : α → σ → (κ → List α) → Prop} {gate : ρ → Gate κ} {time : ρ → α}
  {now : α} {s : σ} {log : Log κ α}

/-- One request. -/
theorem Exact.gated_eq (h : Exact w limit allow Knows)
    (hknows : Knows now s fun key => timesOf key log) (gate : ρ → Gate κ) {r : ρ}
    (hle : now ≤ time r) :
    (gated allow gate time r s).1 = (w.serve limit gate time r log).1 ∧
      ∃ now', now' ≤ time r ∧ Knows now' (gated allow gate time r s).2
        fun key => timesOf key (w.serve limit gate time r log).2 := by
  unfold gated
  cases hgate : gate r with
  | pass =>
    have hadmits : w.admits limit log (gate r) (time r) = true := by rw [hgate, admits]
    rw [serve_of_admits hadmits]
    refine ⟨rfl, now, hle, ?_⟩
    simp only [hgate, Gate.key, timesOf_concat_none]
    exact hknows
  | block =>
    have hadmits : w.admits limit log (gate r) (time r) = false := by rw [hgate, admits]
    rw [serve_of_not_admits hadmits]
    exact ⟨rfl, now, hle, hknows⟩
  | limit key =>
    have hadmits : w.admits limit log (gate r) (time r) = (allow key (time r) s).1 := by
      rw [hgate, admits, h.allow_fst hknows hle]
    have hnext : Knows (time r) (allow key (time r) s).2 _ := h.knows_allow hknows hle
    cases hallow : (allow key (time r) s).1 with
    | true =>
      rw [hallow] at hadmits hnext
      rw [if_pos rfl, ← timesOf_concat_key] at hnext
      rw [serve_of_admits hadmits]
      refine ⟨rfl, time r, le_rfl, ?_⟩
      simp only [hgate, Gate.key]
      exact hnext
    | false =>
      rw [hallow] at hadmits hnext
      rw [if_neg Bool.false_ne_true] at hnext
      rw [serve_of_not_admits hadmits]
      exact ⟨rfl, time r, le_rfl, hnext⟩

/-- **An exact limiter** answers a history like the one that remembers everything. -/
theorem Exact.answers_eq (h : Exact w limit allow Knows)
    (hknows : Knows now s fun key => timesOf key log) (gate : ρ → Gate κ) {rs : List ρ}
    (hsorted : (now :: rs.map time).Pairwise (· ≤ ·)) :
    answers (gated allow gate time) s rs = answers (w.serve limit gate time) log rs := by
  induction rs generalizing now s log with
  | nil => rfl
  | cons r rs ih =>
    obtain ⟨hnow, hrest⟩ := List.pairwise_cons.mp hsorted
    obtain ⟨hr, hrest⟩ := List.pairwise_cons.mp hrest
    obtain ⟨hfst, now', hle', hnext⟩ :=
      h.gated_eq hknows gate (hnow (time r) List.mem_cons_self)
    rw [answers, answers, hfst]
    congr 1
    refine ih hnext (List.pairwise_cons.mpr ⟨fun t ht => hle'.trans (hr t ht), hrest⟩)

/-- What it knows after a history. -/
theorem Exact.knows_run (h : Exact w limit allow Knows)
    (hknows : Knows now s fun key => timesOf key log) (gate : ρ → Gate κ) {rs : List ρ} {t : α}
    (hsorted : (now :: rs.map time ++ [t]).Pairwise (· ≤ ·)) :
    ∃ now', now' ≤ t ∧ Knows now' (run (fun r s => (gated allow gate time r s).2) s rs)
      fun key => timesOf key (run (w.next limit gate time) log rs) := by
  induction rs generalizing now s log with
  | nil =>
    have hle : now ≤ t := List.rel_of_pairwise_cons hsorted (by simp)
    exact ⟨now, hle, hknows⟩
  | cons r rs ih =>
    obtain ⟨hnow, hrest⟩ := List.pairwise_cons.mp hsorted
    obtain ⟨hr, hrest⟩ := List.pairwise_cons.mp hrest
    obtain ⟨-, now', hle', hnext⟩ :=
      h.gated_eq hknows gate (hnow (time r) List.mem_cons_self)
    exact ih hnext (List.pairwise_cons.mpr ⟨fun t ht => hle'.trans (hr t ht), hrest⟩)

/-- A sorted list can be extended to the left. -/
theorem exists_start [Inhabited α] {times : List α} (h : times.Pairwise (· ≤ ·)) :
    ∃ start, (start :: times).Pairwise (· ≤ ·) := by
  cases times with
  | nil => exact ⟨default, by simp⟩
  | cons t times =>
    refine ⟨t, List.pairwise_cons.mpr ⟨fun t' ht' => ?_, h⟩⟩
    rcases List.mem_cons.mp ht' with rfl | ht'
    · exact le_rfl
    · exact List.rel_of_pairwise_cons h ht'

/-! ### All requests behind a gate -/

/-- The requests of a history that were not counted and still count. -/
def openCount (w : Window α) (gate : ρ → Gate κ) (time : ρ → α) (now : α) (rs : List ρ) : ℕ :=
  rs.countP fun r => (gate r matches .pass) && w.young now (time r)

/-- Whether a gate and a limiter let a request through, where `count` are the admitted requests of a
key that still count. -/
def Passes (limit : ℤ) (count : κ → ℕ) : Gate κ → Prop
  | .pass => True
  | .block => False
  | .limit key => (count key : ℤ) < limit

theorem Exact.passedTimes_eq (h : Exact w limit allow Knows)
    (hstart : Knows now s fun key => timesOf key []) {rs : List ρ}
    (hsorted : (now :: rs.map time).Pairwise (· ≤ ·)) :
    passedTimes allow gate time s rs = allTimes (run (w.next limit gate time) [] rs) := by
  rw [passedTimes, h.answers_eq hstart gate hsorted, run_next, List.nil_append, allTimes,
    List.map_map]
  rfl

variable (gate) in
/-- **When a limiter behind a gate keeps all requests within the limit**: a request that passes
comes when fewer than `limit` still count, of all keys and of those that were not counted. -/
theorem Exact.bounded_iff (h : Exact w limit allow Knows)
    (hstart : Knows now s fun key => timesOf key []) (count : σ → α → κ → ℕ)
    (hcount : ∀ {now s times t}, Knows now s times → now ≤ t →
      ∀ key, count s t key = (times key).countP (w.young t))
    {rs : List ρ} (keys : List ρ → Finset κ)
    (hkeys : ∀ pre, pre <+: rs → ∀ r ∈ pre, ∀ key, (gate r).key = some key → key ∈ keys pre)
    (hlimit : 0 ≤ limit) (hsorted : (now :: rs.map time).Pairwise (· ≤ ·)) :
    w.Bounded limit (passedTimes allow gate time s rs) ↔
      ∀ pre r post, rs = pre ++ r :: post →
        Passes limit
          (count (run (fun r s => (gated allow gate time r s).2) s pre) (time r)) (gate r) →
        ((∑ key ∈ keys pre,
            count (run (fun r s => (gated allow gate time r s).2) s pre) (time r) key) +
          openCount w gate time (time r) pre : ℕ) < limit := by
  rw [h.passedTimes_eq hstart hsorted, bounded_allTimes_iff hlimit hsorted.of_cons, meets_iff]
  refine forall₄_congr fun pre r post heq => ?_
  have hpre : (now :: pre.map time ++ [time r]).Pairwise (· ≤ ·) := by
    refine hsorted.sublist ?_
    rw [heq, List.map_append, List.map_cons, List.cons_append]
    exact List.Sublist.cons_cons now (List.Sublist.append_left (by simp) _)
  -- what the limiter counts in its state is what the full log has
  obtain ⟨now', hle, hknows⟩ := h.knows_run hstart gate hpre
  have hkey := hcount hknows hle
  have hpasses : w.admits limit (run (w.next limit gate time) [] pre) (gate r) (time r) = true ↔
      Passes limit (count (run (fun r s => (gated allow gate time r s).2) s pre) (time r))
        (gate r) := by
    cases gate r with
    | pass => simp [admits, Passes]
    | block => simp [admits, Passes]
    | limit key => rw [admits, decide_eq_true_eq, Passes, hkey]
  have htotal : (allTimes (run (w.next limit gate time) [] pre)).countP (w.young (time r)) =
      (∑ key ∈ keys pre,
        count (run (fun r s => (gated allow gate time r s).2) s pre) (time r) key) +
        openCount w gate time (time r) pre := by
    have hall : ∀ e ∈ run (w.next limit gate time) [] pre, ∀ key, e.1 = some key →
        key ∈ keys pre := by
      intro e he key howner
      obtain ⟨r', hr', hgate, -⟩ := exists_of_mem_run he
      exact hkeys pre ⟨r :: post, heq.symm⟩ r' hr' key (hgate.trans howner)
    rw [countP_allTimes _ hall, openTimes_run]
    congr 1
    · exact Finset.sum_congr rfl fun key _ => (hkey key).symm
    · rw [List.countP_map, List.countP_filter, openCount]
      apply List.countP_congr
      intro r' _
      simp [and_comm]
  rw [hpasses, htotal]

end Exact

end Window

end MarketplacePipeline.SlidingWindow
