import MarketplacePipeline.Algorithm.SlidingWindow
import MarketplacePipeline.Api.Equiv.RateLimit

/-!
# The in-memory limiter over a history

`_allow` drops the hits of a client that are older than 60 seconds whenever it looks at them, on
both of its paths.  No later request counts what it dropped, so it decides as if it remembered all
admitted requests (`exact_allow`), and the properties of the window follow.
-/

namespace MarketplacePipeline.RateLimitMiddleware

open Schedule SlidingWindow

/-- The 60 seconds before an instant, both ends included. -/
def closedMinute : Window ℚ where
  young now t := decide (now - 60 ≤ t)
  young_self t := by simp
  mono := by
    intro now t now' t' h ht hnow
    have hle := of_decide_eq_true h
    exact decide_eq_true (by linarith)

/-- The hits are the admitted requests, as far as a request from `now` on can count them. -/
def KnowsHits (now : ℚ) (hits times : Str → List ℚ) : Prop :=
  ∀ clientIp t, now ≤ t → recent t (hits clientIp) = recent t (times clientIp)

/-- The hits of a client in the 60 seconds before `now`. -/
def hitsInMinute (now : ℚ) (hits : Str → List ℚ) (ip : Str) : ℕ :=
  (hits ip).countP (now - 60 ≤ ·)

theorem hitsInMinute_of_knows {now t : ℚ} {times : Str → List ℚ} (h : KnowsHits now hits times)
    (hle : now ≤ t) (ip : Str) :
    hitsInMinute t hits ip = (times ip).countP (closedMinute.young t) := by
  have hsame := congrArg List.length (h ip t hle)
  rw [length_recent, length_recent] at hsame
  exact hsame

theorem recent_recent {now t : ℚ} (hle : now ≤ t) (hits : List ℚ) :
    recent t (recent now hits) = recent t hits := by
  unfold recent
  rw [List.filter_filter]
  apply List.filter_congr
  intro ts _
  have himp : t - 60 ≤ ts → now - 60 ≤ ts := fun h => by linarith
  simpa using himp

/-- **The limiter is exact.** -/
theorem exact_allow {limit : ℤ} (hlimit : 1 ≤ limit) :
    closedMinute.Exact limit (fun clientIp now hits => allow limit now clientIp hits)
      KnowsHits := by
  have hpos : 0 < limit := hlimit
  constructor
  · intro now clientIp t hits times hknows hle
    rw [Bool.eq_iff_iff, allow_fst_iff hpos, decide_eq_true_eq,
      ← hitsInMinute_of_knows hknows hle, hitsInMinute]
  · intro now clientIp t hits times hknows hle clientIp' t' ht'
    have hsame := hknows clientIp' t' (hle.trans ht')
    rcases lt_or_ge ((hits clientIp).countP (t - 60 ≤ ·) : ℤ) limit with hroom | hfull
    · rw [allow_of_room hpos hroom, if_pos rfl]
      dsimp only
      by_cases hclient : clientIp' = clientIp
      · subst hclient
        rw [Function.update_self, Function.update_self]
        unfold recent at hsame ⊢
        rw [List.filter_append, List.filter_append, ← hsame]
        congr 1
        exact recent_recent ht' _
      · rw [Function.update_of_ne hclient, Function.update_of_ne hclient]
        exact hsame
    · rw [allow_of_full hpos hfull, if_neg Bool.false_ne_true]
      dsimp only
      by_cases hclient : clientIp' = clientIp
      · subst hclient
        rw [Function.update_self, recent_recent ht']
        exact hsame
      · rw [Function.update_of_ne hclient]
        exact hsame

theorem knowsHits_start (now : ℚ) :
    KnowsHits now (fun _ => []) fun clientIp => timesOf clientIp [] := fun _ _ _ => rfl

/-! ### Histories of requests -/

/-- `_allow` for a request `(client_ip, now)`. -/
def allowRequest (limit : ℤ) (r : Str × ℚ) (hits : Str → List ℚ) : Bool × (Str → List ℚ) :=
  allow limit r.2 r.1 hits

/-- The hits after a history. -/
def hitsAfter (limit : ℤ) (history : List (Str × ℚ)) : Str → List ℚ :=
  run (fun r hits => (allowRequest limit r hits).2) (fun _ => []) history

/-- The requests of a history with their decisions. -/
def decided (limit : ℤ) (history : List (Str × ℚ)) : List ((Str × ℚ) × Bool) :=
  answers (allowRequest limit) (fun _ => []) history

/-- The requests that are admitted. -/
def admitted (limit : ℤ) (history : List (Str × ℚ)) : List (Str × ℚ) :=
  ((decided limit history).filter (·.2)).map Prod.fst

/-- The limiter is a sliding window of 60 seconds for each client. -/
structure ExactWindows (limit : ℤ) (history : List (Str × ℚ)) : Prop where
  allow_iff : ∀ pre clientIp now post, history = pre ++ (clientIp, now) :: post →
    ((allow limit now clientIp (hitsAfter limit pre)).1 = true ↔
      ((admitted limit pre).countP
        (fun e => e.1 = clientIp ∧ now - 60 ≤ e.2 ∧ e.2 ≤ now) : ℤ) < limit)
  window_le : ∀ clientIp s, ((admitted limit history).countP
    (fun e => e.1 = clientIp ∧ s ≤ e.2 ∧ e.2 ≤ s + 60) : ℤ) ≤ limit
  /-- Without a request that is denied, the others are decided as with it. -/
  denied : ∀ pre r post, history = pre ++ r :: post →
    (allowRequest limit r (hitsAfter limit pre)).1 = false →
    ∃ rest, decided limit history = decided limit pre ++ (r, false) :: rest ∧
      decided limit (pre ++ post) = decided limit pre ++ rest
  independent : ∀ clientIp, (decided limit history).filter (fun e => e.1.1 = clientIp) =
    decided limit (history.filter fun r => r.1 = clientIp)

section History

variable {limit : ℤ} {history : List (Str × ℚ)}

/-- Every request is counted for its client. -/
def clientGate (r : Str × ℚ) : Gate Str := .limit r.1

/-- The log of the limiter that remembers everything. -/
def logAfter (limit : ℤ) (history : List (Str × ℚ)) : Log Str ℚ :=
  run (closedMinute.next limit clientGate Prod.snd) [] history

theorem decided_eq (hlimit : 1 ≤ limit) (hsorted : (history.map Prod.snd).Pairwise (· ≤ ·)) :
    decided limit history =
      answers (closedMinute.serve limit clientGate Prod.snd) [] history := by
  obtain ⟨start, hstart⟩ := Window.exists_start hsorted
  exact (exact_allow hlimit).answers_eq (knowsHits_start start) clientGate hstart

theorem logAfter_eq (hlimit : 1 ≤ limit) (hsorted : (history.map Prod.snd).Pairwise (· ≤ ·)) :
    logAfter limit history = (admitted limit history).map fun r => (some r.1, r.2) := by
  rw [logAfter, Window.run_next, List.nil_append, ← decided_eq hlimit hsorted, admitted,
    List.map_map]
  rfl

theorem countP_timesOf (requests : List (Str × ℚ)) (clientIp : Str) (p : ℚ → Bool) :
    (timesOf clientIp (requests.map fun r => (some r.1, r.2))).countP p =
      requests.countP fun r => decide (r.1 = clientIp) && p r.2 := by
  unfold timesOf
  rw [List.filter_map, List.map_map, List.countP_map, List.countP_filter]
  apply List.countP_congr
  intro r _
  simp [and_comm]

theorem mem_of_mem_admitted {r : Str × ℚ} (h : r ∈ admitted limit history) : r ∈ history := by
  obtain ⟨e, he, rfl⟩ := List.mem_map.mp h
  have hmem := List.mem_map_of_mem (f := Prod.fst) (List.mem_of_mem_filter he)
  rwa [decided, map_fst_answers] at hmem

/-- The decision on a request that comes after a history. -/
theorem allow_hitsAfter (hlimit : 1 ≤ limit) {clientIp : Str} {now : ℚ}
    (hsorted : (history.map Prod.snd ++ [now]).Pairwise (· ≤ ·)) :
    (allow limit now clientIp (hitsAfter limit history)).1 = decide
      (((timesOf clientIp (logAfter limit history)).countP (closedMinute.young now) : ℤ) <
        limit) := by
  obtain ⟨start, hstart⟩ := Window.exists_start hsorted
  obtain ⟨now', hle, hknows⟩ :=
    (exact_allow hlimit).knows_run (knowsHits_start start) clientGate hstart
  exact (exact_allow hlimit).allow_fst hknows hle

/-- What comes before a request of a history. -/
theorem sorted_before {pre post : List (Str × ℚ)} {r : Str × ℚ}
    (hsorted : ((pre ++ r :: post).map Prod.snd).Pairwise (· ≤ ·)) :
    (pre.map Prod.snd ++ [r.2]).Pairwise (· ≤ ·) := by
  rw [List.map_append, List.map_cons, ← List.singleton_append, ← List.append_assoc] at hsorted
  exact (List.pairwise_append.mp hsorted).1

theorem allow_iff (hlimit : 1 ≤ limit) {pre : List (Str × ℚ)} {clientIp : Str} {now : ℚ}
    (hsorted : (pre.map Prod.snd ++ [now]).Pairwise (· ≤ ·)) :
    (allow limit now clientIp (hitsAfter limit pre)).1 = true ↔
      ((admitted limit pre).countP
        (fun e => e.1 = clientIp ∧ now - 60 ≤ e.2 ∧ e.2 ≤ now) : ℤ) < limit := by
  obtain ⟨hpre, -, hbefore⟩ := List.pairwise_append.mp hsorted
  have hcount : ((admitted limit pre).countP fun r =>
      decide (r.1 = clientIp) && closedMinute.young now r.2) =
      (admitted limit pre).countP
        (fun e => e.1 = clientIp ∧ now - 60 ≤ e.2 ∧ e.2 ≤ now) := by
    apply List.countP_congr
    intro r hr
    have hle : r.2 ≤ now :=
      hbefore _ (List.mem_map_of_mem (mem_of_mem_admitted hr)) now (by simp)
    simp [closedMinute, hle]
  rw [allow_hitsAfter hlimit hsorted, decide_eq_true_eq, logAfter_eq hlimit hpre, countP_timesOf,
    hcount]

theorem window_le (hlimit : 1 ≤ limit) (hsorted : (history.map Prod.snd).Pairwise (· ≤ ·))
    (clientIp : Str) (s : ℚ) :
    ((admitted limit history).countP
      (fun e => e.1 = clientIp ∧ s ≤ e.2 ∧ e.2 ≤ s + 60) : ℤ) ≤ limit := by
  have hbounded := closedMinute.bounded_timesOf_run clientGate (by omega : 0 ≤ limit) hsorted
    clientIp s
  rw [← logAfter, logAfter_eq hlimit hsorted, countP_timesOf] at hbounded
  have hcount : ((admitted limit history).countP fun e =>
      decide (e.1 = clientIp ∧ s ≤ e.2 ∧ e.2 ≤ s + 60)) =
      (admitted limit history).countP fun r =>
        decide (r.1 = clientIp) && (decide (s ≤ r.2) && closedMinute.young r.2 s) := by
    apply List.countP_congr
    intro r _
    simp [closedMinute]
  rw [hcount]
  exact hbounded

theorem decided_without (hlimit : 1 ≤ limit) {pre post : List (Str × ℚ)} {r : Str × ℚ}
    (hsorted : ((pre ++ r :: post).map Prod.snd).Pairwise (· ≤ ·))
    (hdenied : (allowRequest limit r (hitsAfter limit pre)).1 = false) :
    ∃ rest, decided limit (pre ++ r :: post) = decided limit pre ++ (r, false) :: rest ∧
      decided limit (pre ++ post) = decided limit pre ++ rest := by
  have hbefore := sorted_before hsorted
  have hpre := (List.pairwise_append.mp hbefore).1
  have hshort : ((pre ++ post).map Prod.snd).Pairwise (· ≤ ·) :=
    hsorted.sublist
      (List.Sublist.map _ (List.Sublist.append_left (List.sublist_cons_self r post) pre))
  have hserve :
      (closedMinute.serve limit clientGate Prod.snd r (logAfter limit pre)).1 = false := by
    rw [Window.serve_fst, ← hdenied]
    exact (allow_hitsAfter hlimit hbefore).symm
  have hsame := Window.answers_of_denied post hserve
  rw [decided_eq hlimit hsorted, decided_eq hlimit hpre, decided_eq hlimit hshort]
  exact ⟨_, hsame⟩

theorem decided_filter (hlimit : 1 ≤ limit) (hsorted : (history.map Prod.snd).Pairwise (· ≤ ·))
    (clientIp : Str) : (decided limit history).filter (fun e => e.1.1 = clientIp) =
      decided limit (history.filter fun r => r.1 = clientIp) := by
  have hfilter : ((history.filter fun r => r.1 = clientIp).map Prod.snd).Pairwise (· ≤ ·) :=
    hsorted.sublist (List.Sublist.map _ List.filter_sublist)
  have hkey := closedMinute.answers_filter_key limit clientGate Prod.snd
    (rfl : timesOf clientIp [] = timesOf clientIp []) history
  rw [decided_eq hlimit hsorted, decided_eq hlimit hfilter]
  simpa [clientGate, Gate.key] using hkey

/-- **The sliding window of the in-memory limiter**, for any number of clients and any history. -/
theorem allow_exactWindows (hlimit : 1 ≤ limit)
    (hsorted : (history.map Prod.snd).Pairwise (· ≤ ·)) : ExactWindows limit history where
  allow_iff pre clientIp now post heq := by
    subst heq
    exact allow_iff hlimit (sorted_before hsorted)
  window_le := window_le hlimit hsorted
  denied pre r post heq hdenied := by
    subst heq
    exact decided_without hlimit hsorted hdenied
  independent := decided_filter hlimit hsorted

/-- Two clients, a limit of one. -/
theorem allow_exactWindows_two :
    ExactWindows 1 [(['a'], 0), (['b'], 10), (['a'], 30), (['a'], 61)] :=
  allow_exactWindows (by decide) (by decide +kernel)

end History

end MarketplacePipeline.RateLimitMiddleware
