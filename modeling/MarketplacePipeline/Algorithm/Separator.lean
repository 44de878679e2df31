import Mathlib.Data.List.Basic
import Mathlib.Tactic.Common

/-!
# Two lists around a separator

`a ++ c :: b` says what `a` and `b` are once it is known which `c` is the separator.  Two pairs give
the same list if they are the same, or if the one takes a later `c` for the separator than the other
(`separated_eq_iff`).
-/

namespace MarketplacePipeline.Separator

variable {α : Type*} {c : α} {a b a' b' : List α}

/-- The second pair has a later separator: `m`, and the separator of the first pair before it, are
at the end of `a'` and not at the start of `b`. -/
def Later (c : α) (a b a' b' : List α) : Prop :=
  ∃ m, a' = a ++ c :: m ∧ b = m ++ c :: b'

theorem Later.separated_eq (h : Later c a b a' b') : a ++ c :: b = a' ++ c :: b' := by
  obtain ⟨m, rfl, rfl⟩ := h
  rw [List.append_assoc, List.cons_append]

theorem Later.length_lt (h : Later c a b a' b') : a.length < a'.length := by
  obtain ⟨m, rfl, -⟩ := h
  rw [List.length_append, List.length_cons]
  omega

/-- Lists with a separator are the same for the same pair, or for one with a later separator. -/
theorem separated_eq_iff : a ++ c :: b = a' ++ c :: b' ↔
    (a = a' ∧ b = b') ∨ Later c a b a' b' ∨ Later c a' b' a b := by
  constructor
  · intro h
    rcases List.append_eq_append_iff.mp h with ⟨m, ha, hb⟩ | ⟨m, ha, hb⟩
    · cases m with
      | nil =>
        rw [List.append_nil] at ha
        exact Or.inl ⟨ha.symm, (List.cons.inj hb).2⟩
      | cons x m =>
        obtain ⟨rfl, hrest⟩ := List.cons.inj hb
        exact Or.inr (Or.inl ⟨m, ha, hrest⟩)
    · cases m with
      | nil =>
        rw [List.append_nil] at ha
        exact Or.inl ⟨ha, (List.cons.inj hb).2.symm⟩
      | cons x m =>
        obtain ⟨rfl, hrest⟩ := List.cons.inj hb
        exact Or.inr (Or.inr ⟨m, ha, hrest⟩)
  · rintro (⟨rfl, rfl⟩ | h | h)
    · rfl
    · exact h.separated_eq
    · exact h.separated_eq.symm

end MarketplacePipeline.Separator
