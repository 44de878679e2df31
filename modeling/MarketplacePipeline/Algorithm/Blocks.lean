import Mathlib.Data.Nat.Find
import Mathlib.Order.Lattice
import Mathlib.Order.Monotone.Basic
import Mathlib.Tactic.Common

/-!
# Numbers that count into blocks

Blocks lie one after another on a line, and a number counts into one of them.  If no block reaches
into a later one (`Apart`), such numbers are compared by their blocks first (`add_lt_add_iff`).
The blocks may be of one size, as in a positional system (`mul_add_lt_mul_add_iff`), or of several,
as the months of a calendar.
-/

namespace MarketplacePipeline.Blocks

variable {κ : Type*} [LinearOrder κ]

/-- No block reaches into a later one. -/
def Apart (start size : κ → ℕ) : Prop := ∀ ⦃i j⦄, i < j → start i + size i ≤ start j

theorem add_lt_add_iff {start size : κ → ℕ} (h : Apart start size) {i j : κ} {r s : ℕ}
    (hr : r < size i) (hs : s < size j) :
    start i + r < start j + s ↔ i < j ∨ i = j ∧ r < s := by
  rcases lt_trichotomy i j with hlt | rfl | hgt
  · have hnext := h hlt
    exact iff_of_true (by omega) (Or.inl hlt)
  · simp
  · have hnext := h hgt
    exact iff_of_false (by omega) (by simp [hgt.not_gt, hgt.ne'])

/-- Blocks that each end where the next begins, or before. -/
theorem apart_of_succ {start size : ℕ → ℕ} (h : ∀ i, start i + size i ≤ start (i + 1)) :
    Apart start size := by
  have hmono : Monotone start :=
    monotone_nat_of_le_succ fun i => (Nat.le_add_right _ _).trans (h i)
  intro i j hij
  exact (h i).trans (hmono hij)

/-- Numbers in a positional system. -/
theorem mul_add_lt_mul_add_iff {b i j r s : ℕ} (hr : r < b) (hs : s < b) :
    i * b + r < j * b + s ↔ i < j ∨ i = j ∧ r < s := by
  have hapart : Apart (fun i => i * b) (fun _ => b) :=
    apart_of_succ fun i => (Nat.succ_mul i b).ge
  exact add_lt_add_iff hapart hr hs

/-- The last of the blocks that begins at a number or before it. -/
def blockOf (start : ℕ → ℕ) (last n : ℕ) : ℕ := Nat.findGreatest (fun i => start i ≤ n) last

theorem blockOf_le (start : ℕ → ℕ) (last n : ℕ) : blockOf start last n ≤ last :=
  Nat.findGreatest_le last

/-- A number between the first block and the end of the last one lies in its block. -/
theorem blockOf_spec {start : ℕ → ℕ} {last n : ℕ} (hfirst : start 0 ≤ n)
    (hend : n < start (last + 1)) :
    start (blockOf start last n) ≤ n ∧ n < start (blockOf start last n + 1) := by
  refine ⟨Nat.findGreatest_spec (P := fun i => start i ≤ n) (Nat.zero_le last) hfirst, ?_⟩
  rcases (blockOf_le start last n).lt_or_eq with hlt | heq
  · have hnot : ¬ start (blockOf start last n + 1) ≤ n :=
      Nat.findGreatest_is_greatest (P := fun i => start i ≤ n) (Nat.lt_succ_self _) hlt
    exact not_le.mp hnot
  · rw [heq]
    exact hend

end MarketplacePipeline.Blocks
