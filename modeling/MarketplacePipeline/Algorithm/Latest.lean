import Mathlib.Data.List.Basic

/-!
# The latest element with a property

`List.findRev? p l` is the last element of `l` that satisfies `p`.  A log that is written from left
to right only ever changes it by the element it appends (`findRev?_concat`), and in a log that is
ordered by a relation every other element with the property stands before it
(`rel_of_findRev?_eq_some`).
-/

namespace MarketplacePipeline.Latest

variable {α : Type*} {p : α → Bool} {l : List α} {a b : α}

theorem findRev?_concat (p : α → Bool) (l : List α) (a : α) :
    (l ++ [a]).findRev? p = if p a then some a else l.findRev? p := by
  rw [List.findRev?_eq_find?_reverse, List.findRev?_eq_find?_reverse, List.reverse_concat,
    List.find?_cons]
  split <;> simp [*]

theorem findRev?_eq_some_iff : l.findRev? p = some a ↔
    p a = true ∧ ∃ pre post, l = pre ++ a :: post ∧ ∀ b ∈ post, p b = false := by
  rw [List.findRev?_eq_find?_reverse, List.find?_eq_some_iff_append]
  refine and_congr_right fun _ => ?_
  constructor
  · rintro ⟨as, bs, hl, has⟩
    refine ⟨bs.reverse, as.reverse, ?_, fun b hb => by simpa using has b (List.mem_reverse.mp hb)⟩
    rw [← List.reverse_reverse l, hl, List.reverse_append, List.reverse_cons, List.append_assoc]
    rfl
  · rintro ⟨pre, post, rfl, hpost⟩
    refine ⟨post.reverse, pre.reverse, ?_, fun b hb => ?_⟩
    · rw [List.reverse_append, List.reverse_cons, List.append_assoc]
      rfl
    · simpa using hpost b (List.mem_reverse.mp hb)

theorem mem_of_findRev?_eq_some (h : l.findRev? p = some a) : a ∈ l := by
  obtain ⟨-, pre, post, rfl, -⟩ := findRev?_eq_some_iff.mp h
  simp

theorem exists_findRev?_eq_some (ha : a ∈ l) (hp : p a = true) : ∃ b, l.findRev? p = some b := by
  cases h : l.findRev? p with
  | some b => exact ⟨b, rfl⟩
  | none =>
    rw [List.findRev?_eq_find?_reverse, List.find?_eq_none] at h
    exact absurd hp (h a (List.mem_reverse.mpr ha))

/-- In an ordered log the latest element stands behind the others. -/
theorem rel_of_findRev?_eq_some {r : α → α → Prop} (hl : l.Pairwise r)
    (h : l.findRev? p = some b) (ha : a ∈ l) (hp : p a = true) : a = b ∨ r a b := by
  obtain ⟨-, pre, post, rfl, hpost⟩ := findRev?_eq_some_iff.mp h
  rcases List.mem_append.mp ha with hpre | hrest
  · exact Or.inr ((List.pairwise_append.mp hl).2.2 a hpre b (by simp))
  · rcases List.mem_cons.mp hrest with rfl | hlater
    · exact Or.inl rfl
    · have hfalse := hpost a hlater
      rw [hp] at hfalse
      cases hfalse

end MarketplacePipeline.Latest
