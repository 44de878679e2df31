import Mathlib.Order.Basic

/-!
# Components that share a state

Calls of several components are made on one shared state, one after another.  Each call belongs to
one component, or to none of them.  `Separate` says that the calls of a component act on what it
sees of the shared state as they would act on a state of its own, and that no other call is seen by
it.  Then a component gets the answers it would get alone, in whatever order the calls of the
components come (`answersTo_eq`).
-/

namespace MarketplacePipeline.SharedState

variable {ι α β σ T : Type*} {State : ι → Type*}

/-- The calls with their answers. -/
def answered (step : α → σ → β × σ) : σ → List α → List (α × β)
  | _, [] => []
  | s, a :: as => (a, (step a s).1) :: answered step (step a s).2 as

/-- The calls of a component with their answers. -/
def answersTo [DecidableEq ι] (owner : α → Option ι) (i : ι) (answers : List (α × β)) :
    List (α × β) :=
  answers.filter fun answer => owner answer.1 = some i

/-- The calls of a component. -/
def callsOf [DecidableEq ι] (owner : α → Option ι) (i : ι) (calls : List α) : List α :=
  calls.filter fun a => owner a = some i

/-- `Sees i t s local` is that component `i` sees its state `local` in the shared state `s` from
the time `t` on. -/
structure Separate [Preorder T] (step : α → σ → β × σ)
    (alone : (i : ι) → α → State i → β × State i) (owner : α → Option ι) (time : α → T)
    (Sees : (i : ι) → T → σ → State i → Prop) : Prop where
  mono : ∀ {i t t' s s'}, t ≤ t' → Sees i t s s' → Sees i t' s s'
  own : ∀ {i a s s'}, owner a = some i → Sees i (time a) s s' →
    (step a s).1 = (alone i a s').1 ∧ Sees i (time a) (step a s).2 (alone i a s').2
  other : ∀ {i a s s'}, owner a ≠ some i → Sees i (time a) s s' → Sees i (time a) (step a s).2 s'

variable [Preorder T] {step : α → σ → β × σ} {alone : (i : ι) → α → State i → β × State i}
  {owner : α → Option ι} {time : α → T} {Sees : (i : ι) → T → σ → State i → Prop}

/-- Components do not notice each other. -/
theorem answersTo_eq [DecidableEq ι] (h : Separate step alone owner time Sees) {i : ι} {t : T}
    {s : σ} {s' : State i} (hsees : Sees i t s s') {calls : List α}
    (hfrom : ∀ a ∈ calls, t ≤ time a) (hsorted : calls.Pairwise fun a b => time a ≤ time b) :
    answersTo owner i (answered step s calls) = answered (alone i) s' (callsOf owner i calls) := by
  -- a call is one of the component, or it leaves alone what the component sees
  induction calls generalizing s s' t with
  | nil => rfl
  | cons a calls ih =>
    obtain ⟨hlater, hsorted⟩ := List.pairwise_cons.mp hsorted
    have hnow : Sees i (time a) s s' := h.mono (hfrom a List.mem_cons_self) hsees
    by_cases ha : owner a = some i
    · obtain ⟨hanswer, hnext⟩ := h.own ha hnow
      have hrest := ih hnext hlater hsorted
      unfold answersTo callsOf at hrest ⊢
      rw [answered, List.filter_cons_of_pos (by simpa using ha),
        List.filter_cons_of_pos (by simpa using ha), answered, hanswer, hrest]
    · have hrest := ih (h.other ha hnow) hlater hsorted
      unfold answersTo callsOf at hrest ⊢
      rw [answered, List.filter_cons_of_neg (by simpa using ha),
        List.filter_cons_of_neg (by simpa using ha), hrest]

end MarketplacePipeline.SharedState
