import Mathlib.Algebra.BigOperators.Group.Multiset.Basic
import Mathlib.Algebra.BigOperators.Group.Finset.Basic
import Mathlib.Tactic.Abel

/-!
# What the parties of a system hold

Each of finitely many parties stands at some place of its program, and holds something there: the
tasks it works on, a number of events it still has to report.  `total` is what all of them hold
together, in any commutative monoid.  A step moves one party, so an equation between the total and
the shared state is kept if the step moves the same amount on both sides (`total_update`).
-/

namespace MarketplacePipeline.Accounting

open Finset

variable {ι π M : Type*} [Fintype ι]

/-- What the parties hold together. -/
def total [AddCommMonoid M] (held : ι → π → M) (pc : ι → π) : M := ∑ i, held i (pc i)

theorem total_eq_zero [AddCommMonoid M] {held : ι → π → M} {pc : ι → π}
    (h : ∀ i, held i (pc i) = 0) : total held pc = 0 :=
  Finset.sum_eq_zero fun i _ => h i

theorem mem_total {α : Type*} {held : ι → π → Multiset α} {pc : ι → π} {a : α} :
    a ∈ total held pc ↔ ∃ i, a ∈ held i (pc i) := by
  unfold total
  rw [Multiset.mem_sum]
  simp

section Update

variable [DecidableEq ι] [AddCommMonoid M] (held : ι → π → M) (pc : ι → π) (i : ι) (p : π)

/-- One party moves: what it held goes, what it holds now comes. -/
theorem total_update :
    total held (Function.update pc i p) + held i (pc i) = total held pc + held i p := by
  have hrest : ∑ j ∈ univ.erase i, held j (Function.update pc i p j) =
      ∑ j ∈ univ.erase i, held j (pc j) := by
    apply Finset.sum_congr rfl
    intro j hj
    rw [Function.update_of_ne (Finset.ne_of_mem_erase hj)]
  show (∑ j, held j (Function.update pc i p j)) + held i (pc i) = (∑ j, held j (pc j)) + held i p
  rw [← Finset.add_sum_erase univ _ (Finset.mem_univ i), hrest, Function.update_self,
    ← Finset.add_sum_erase univ (fun j => held j (pc j)) (Finset.mem_univ i)]
  abel

end Update

end MarketplacePipeline.Accounting
