import Mathlib.Logic.Function.Iterate
import Mathlib.Tactic.Common

/-!
# Schedules of atomic steps

A concurrent component is a step function `step : α → σ → σ`: the label says which party moves
(and what it reads from its surroundings), the state is what the parties share together with the
place where each of them stands.  An interleaving is a schedule, a list of labels, and `run` is the
state it reaches.  Quantifying over all schedules is quantifying over all interleavings of any
number of parties.

`Meets C s as` says that every step of the schedule is taken from a state that meets `C`.  The
rules below are the ones a safety argument uses: an invariant of every step holds after every
schedule (`invariant_run`), also when the step only keeps it under `C` (`invariant_run_of_meets`),
two step conditions that agree wherever the invariant holds are met by the same schedules
(`meets_congr_of_invariant`), and what a step keeps exactly under `C` tells which schedules met `C`
(`run_iff_meets`).  `stepParty` is the step of a system whose parties share a world.
-/

namespace MarketplacePipeline.Schedule

variable {α σ : Type*} (step : α → σ → σ)

/-- The state after the steps of a schedule, taken one after another. -/
def run (s : σ) : List α → σ
  | [] => s
  | a :: as => run (step a s) as

/-- Every step of the schedule is taken from a state that meets `C`. -/
def Meets (C : α → σ → Prop) (s : σ) : List α → Prop
  | [] => True
  | a :: as => C a s ∧ Meets C (step a s) as

instance decidableMeets (C : α → σ → Prop) [∀ a s, Decidable (C a s)] (s : σ) :
    (as : List α) → Decidable (Meets step C s as)
  | [] => .isTrue trivial
  | a :: as => @instDecidableAnd _ _ _ (decidableMeets C (step a s) as)

variable {step}

@[simp] theorem run_nil (s : σ) : run step s [] = s := rfl

@[simp] theorem run_cons (s : σ) (a : α) (as : List α) :
    run step s (a :: as) = run step (step a s) as := rfl

theorem run_append (s : σ) (as bs : List α) :
    run step s (as ++ bs) = run step (run step s as) bs := by
  induction as generalizing s with
  | nil => rfl
  | cons a as ih => exact ih (step a s)

@[simp] theorem meets_nil (C : α → σ → Prop) (s : σ) : Meets step C s [] := trivial

@[simp] theorem meets_cons (C : α → σ → Prop) (s : σ) (a : α) (as : List α) :
    Meets step C s (a :: as) ↔ C a s ∧ Meets step C (step a s) as := Iff.rfl

theorem meets_append {C : α → σ → Prop} {s : σ} {as bs : List α} :
    Meets step C s (as ++ bs) ↔ Meets step C s as ∧ Meets step C (run step s as) bs := by
  induction as generalizing s with
  | nil => simp
  | cons a as ih => rw [List.cons_append, meets_cons, meets_cons, run_cons, ih, and_assoc]

theorem meets_of_forall {C : α → σ → Prop} {as : List α} (h : ∀ a ∈ as, ∀ s, C a s) (s : σ) :
    Meets step C s as := by
  induction as generalizing s with
  | nil => trivial
  | cons a as ih =>
    exact ⟨h a List.mem_cons_self s, ih (fun b hb => h b (List.mem_cons_of_mem a hb)) _⟩

/-- The condition of a schedule, read off at each of its cuts: the step after a prefix is taken
from the state that the prefix reached. -/
theorem meets_iff {C : α → σ → Prop} {s : σ} {as : List α} :
    Meets step C s as ↔ ∀ pre a post, as = pre ++ a :: post → C a (run step s pre) := by
  induction as generalizing s with
  | nil => simp
  | cons b as ih =>
    rw [meets_cons, ih]
    constructor
    · rintro ⟨hb, hrest⟩ pre a post h
      cases pre with
      | nil =>
        obtain ⟨rfl, -⟩ := List.cons.inj h
        exact hb
      | cons c pre =>
        obtain ⟨rfl, hpre⟩ := List.cons.inj h
        exact hrest pre a post hpre
    · intro h
      refine ⟨h [] b as rfl, fun pre a post has => ?_⟩
      exact h (b :: pre) a post (by rw [has, List.cons_append])

theorem Meets.of_prefix {C : α → σ → Prop} {s : σ} {pre as : List α} (hpre : pre <+: as)
    (h : Meets step C s as) : Meets step C s pre := by
  obtain ⟨rest, rfl⟩ := hpre
  exact (meets_append.mp h).1

/-- **The invariant rule**: what every step keeps holds after every schedule. -/
theorem invariant_run {I : σ → Prop} (hstep : ∀ a s, I s → I (step a s)) {s : σ} (h : I s)
    (as : List α) : I (run step s as) := by
  induction as generalizing s with
  | nil => exact h
  | cons a as ih => exact ih (hstep a s h)

/-- The invariant rule for a step that keeps `I` only where `C` holds. -/
theorem invariant_run_of_meets {I : σ → Prop} {C : α → σ → Prop}
    (hstep : ∀ a s, I s → C a s → I (step a s)) {s : σ} (h : I s) {as : List α}
    (hm : Meets step C s as) : I (run step s as) := by
  induction as generalizing s with
  | nil => exact h
  | cons a as ih => exact ih (hstep a s h hm.1) hm.2

/-- Two step conditions that agree under an invariant, which the step keeps under one of them, are
met by the same schedules. -/
theorem meets_congr_of_invariant {I : σ → Prop} {C D : α → σ → Prop}
    (hstep : ∀ a s, I s → C a s → I (step a s)) (hiff : ∀ a s, I s → (C a s ↔ D a s)) {s : σ}
    (h : I s) (as : List α) : Meets step C s as ↔ Meets step D s as := by
  induction as generalizing s with
  | nil => exact Iff.rfl
  | cons a as ih =>
    rw [meets_cons, meets_cons, hiff a s h]
    refine and_congr_right fun hd => ?_
    exact ih (hstep a s h ((hiff a s h).mpr hd))

/-- Under an invariant of every step, a schedule that meets a condition meets what it implies. -/
theorem Meets.mono_of_invariant {I : σ → Prop} {C D : α → σ → Prop}
    (hstep : ∀ a s, I s → I (step a s)) (himp : ∀ a s, I s → C a s → D a s) {s : σ} (h : I s)
    {as : List α} (hm : Meets step C s as) : Meets step D s as := by
  induction as generalizing s with
  | nil => trivial
  | cons a as ih => exact ⟨himp a s h hm.1, ih (hstep a s h) hm.2⟩

/-- A property of states that a step keeps, under an invariant, exactly if it is taken under `C`,
holds after the schedules that meet `C`.  The invariant may rest on a condition `D` on the steps
(a deadline, the fairness of an environment). -/
theorem run_iff_meets {I P : σ → Prop} {C D : α → σ → Prop}
    (hstep : ∀ a s, I s → D a s → I (step a s))
    (hiff : ∀ a s, I s → D a s → (P (step a s) ↔ P s ∧ C a s)) {s : σ} (h : I s) {as : List α}
    (hD : Meets step D s as) : P (run step s as) ↔ P s ∧ Meets step C s as := by
  induction as generalizing s with
  | nil => simp
  | cons a as ih =>
    rw [run_cons, ih (hstep a s h hD.1) hD.2, hiff a s h hD.1, meets_cons, and_assoc]

/-! ### Requests with answers -/

section Answers

variable {β : Type*}

/-- The requests of a schedule, each with its answer. -/
def answers (serve : α → σ → β × σ) : σ → List α → List (α × β)
  | _, [] => []
  | s, a :: as => (a, (serve a s).1) :: answers serve (serve a s).2 as

variable {serve : α → σ → β × σ}

theorem answers_append (s : σ) (as bs : List α) :
    answers serve s (as ++ bs) =
      answers serve s as ++ answers serve (run (fun a s => (serve a s).2) s as) bs := by
  induction as generalizing s with
  | nil => rfl
  | cons a as ih => rw [List.cons_append, answers, ih, answers, List.cons_append, run_cons]

theorem map_fst_answers (serve : α → σ → β × σ) (s : σ) (as : List α) :
    (answers serve s as).map Prod.fst = as := by
  induction as generalizing s with
  | nil => rfl
  | cons a as ih => rw [answers, List.map_cons, ih]

/-- The same requests, with what matters of the answers. -/
theorem map_answers {γ : Type*} (g : β → γ) (s : σ) (as : List α) :
    (answers serve s as).map (fun e => (e.1, g e.2)) =
      answers (fun a s => (g (serve a s).1, (serve a s).2)) s as := by
  induction as generalizing s with
  | nil => rfl
  | cons a as ih => rw [answers, List.map_cons, ih, answers]

/-- The answer to one request, read off at its place. -/
theorem answers_append_cons (s : σ) (pre post : List α) (a : α) :
    answers serve s (pre ++ a :: post) =
      answers serve s pre ++ (a, (serve a (run (fun a s => (serve a s).2) s pre)).1) ::
        answers serve (run (fun a s => (serve a s).2) s (pre ++ [a])) post := by
  rw [answers_append, answers, run_append]
  rfl

end Answers

/-! ### Parties that share a world -/

/-- The world that the parties `ι` share, and where each of them stands. -/
structure Interleaved (ι π ω : Type*) where
  shared : ω
  pc : ι → π

section StepParty

variable {ι π ω : Type*} [DecidableEq ι]

/-- Party `i` takes its next step, which `f` computes from where it stands and the world. -/
def stepParty (f : π → ω → π × ω) (i : ι) (s : Interleaved ι π ω) : Interleaved ι π ω where
  shared := (f (s.pc i) s.shared).2
  pc := Function.update s.pc i (f (s.pc i) s.shared).1

variable {f : π → ω → π × ω} {i j : ι} {s : Interleaved ι π ω}

theorem pc_stepParty_self : (stepParty f i s).pc i = (f (s.pc i) s.shared).1 :=
  Function.update_self _ _ _

/-- A step moves one party. -/
theorem pc_stepParty_of_ne (h : j ≠ i) : (stepParty f i s).pc j = s.pc j :=
  Function.update_of_ne h _ _

/-- What holds of every party still does after a step, if it does of the party that moved. -/
theorem forall_pc_stepParty {P : ι → π → Prop} (hmoved : P i (f (s.pc i) s.shared).1)
    (hall : ∀ j, P j (s.pc j)) (j : ι) : P j ((stepParty f i s).pc j) := by
  by_cases h : j = i
  · subst h
    rw [pc_stepParty_self]
    exact hmoved
  · rw [pc_stepParty_of_ne h]
    exact hall j

/-- A party that moves alone is where `f` takes it. -/
theorem run_replicate_party {α : Type*} {step : α → Interleaved ι π ω → Interleaved ι π ω} {a : α}
    (h : step a = stepParty f i) (n : ℕ) (s : Interleaved ι π ω) :
    ((run step s (List.replicate n a)).pc i, (run step s (List.replicate n a)).shared) =
      (fun x : π × ω => f x.1 x.2)^[n] (s.pc i, s.shared) := by
  induction n generalizing s with
  | zero => rfl
  | succ n ih =>
    rw [List.replicate_succ, run_cons, ih, Function.iterate_succ_apply, h, pc_stepParty_self]
    rfl

end StepParty

end MarketplacePipeline.Schedule
