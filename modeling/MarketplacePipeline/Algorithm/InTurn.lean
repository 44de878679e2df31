import Mathlib.Data.Nat.Notation

/-!
# Calls in turn

A server with a state is called with `1, 2, 3, ...`.  Its answers are then a function of the number
of the call (`answer`), so that code which only calls it in turn can be understood with that
function in its place.
-/

namespace MarketplacePipeline.InTurn

variable {σ β : Type*} (serve : ℕ → σ → β × σ) (s : σ)

/-- The state after the calls `1, ..., n`. -/
def after : ℕ → σ
  | 0 => s
  | n + 1 => (serve (n + 1) (after n)).2

/-- The answer to call `n`. -/
def answer (n : ℕ) : β := (serve n (after serve s (n - 1))).1

theorem serve_after (n : ℕ) :
    serve (n + 1) (after serve s n) = (answer serve s (n + 1), after serve s (n + 1)) := rfl

variable {serve s}

/-- What holds of every answer. -/
theorem forall_answer {P : β → Prop} (h : ∀ n s, P (serve n s).1) (n : ℕ) :
    P (answer serve s n) := h n _

end MarketplacePipeline.InTurn
