import MarketplacePipeline.Algorithm.Schedule
import Mathlib.Data.List.Count

/-!
# Progress of a schedule

A system has a measure of the work that is left.  A step of a party makes some of it, unless the
party is done, and a party that is done stays so.  Then a party that gets more turns than there is
work is done (`done_of_lt_count`), whatever the other parties do: this is all that a fair scheduler
has to give.
-/

namespace MarketplacePipeline.Schedule

variable {α σ : Type*} [DecidableEq α] {step : α → σ → σ}

/-- Work is only ever made by a turn of a party that is not done. -/
structure Progresses (step : α → σ → σ) (work : σ → ℕ) (Done : α → σ → Prop) : Prop where
  done_or_lt : ∀ a s, Done a s ∨ work (step a s) < work s
  work_le : ∀ a s, work (step a s) ≤ work s
  done_step : ∀ a b s, Done a s → Done a (step b s)

variable {work : σ → ℕ} {Done : α → σ → Prop}

omit [DecidableEq α] in
theorem Progresses.done_run (h : Progresses step work Done) {a : α} {s : σ} (hdone : Done a s)
    (as : List α) : Done a (run step s as) :=
  invariant_run (I := Done a) (fun b s => h.done_step a b s) hdone as

omit [DecidableEq α] in
/-- The turns of some of the parties. -/
theorem run_map {β : Type*} (f : β → α) (s : σ) (bs : List β) :
    run step s (bs.map f) = run (fun b => step (f b)) s bs := by
  induction bs generalizing s with
  | nil => rfl
  | cons b bs ih => exact ih (step (f b) s)

/-- A party with more turns than there is work ends up done. -/
theorem Progresses.done_of_lt_count (h : Progresses step work Done) {a : α} {s : σ} {as : List α}
    (hturns : work s < as.count a) : Done a (run step s as) := by
  induction as generalizing s with
  | nil => simp at hturns
  | cons b as ih =>
    rw [List.count_cons] at hturns
    rw [run_cons]
    by_cases hb : b = a
    · subst hb
      rcases h.done_or_lt b s with hdone | hlt
      · exact h.done_run (h.done_step b b s hdone) as
      · -- the turn has made some of the work
        apply ih
        simp only [beq_self_eq_true, if_true] at hturns
        omega
    · apply ih
      have hle := h.work_le b s
      simp only [beq_iff_eq, hb, if_false] at hturns
      omega

end MarketplacePipeline.Schedule
