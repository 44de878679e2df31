import Mathlib.Data.Int.CardIntervalMod
import Mathlib.Tactic.Common

/-!
# Round robin

Step number `i` takes turn `i % n`.  However the steps are cut into pieces, the turns go on
(`turns_append`); among any consecutive steps two turns are taken equally often, up to one
(`count_turns_le`), and among `rounds * n` of them exactly equally often (`count_turns_rounds`).
-/

namespace MarketplacePipeline.RoundRobin

/-- The turns of `k` steps, from step `first` on, among `n`. -/
def turns (n first k : ℕ) : List ℕ := (List.range' first k).map (· % n)

@[simp] theorem turns_zero (n first : ℕ) : turns n first 0 = [] := rfl

theorem turns_one (n first : ℕ) : turns n first 1 = [first % n] := rfl

/-- The steps go on where they stopped. -/
theorem turns_append (n first k l : ℕ) :
    turns n first (k + l) = turns n first k ++ turns n (first + k) l := by
  unfold turns
  rw [← List.map_append, List.range'_append_1]

theorem take_turns (n first k l : ℕ) : (turns n first k).take l = turns n first (min l k) := by
  unfold turns
  rw [← List.map_take]
  rcases le_total l k with h | h
  · rw [List.take_range'_of_length_ge h, min_eq_left h]
  · rw [List.take_range'_of_length_le h, min_eq_right h]

theorem getElem?_turns {n first k i : ℕ} (h : i < k) :
    (turns n first k)[i]? = some ((first + i) % n) := by
  simp [turns, h]

section Counts

variable {n p q : ℕ}

/-- How often a turn is taken, by the steps before and after. -/
theorem count_turns (hp : p < n) (first k : ℕ) :
    (turns n first k).count p + first.count (· ≡ p [MOD n]) =
      (first + k).count (· ≡ p [MOD n]) := by
  induction k with
  | zero => simp
  | succ k ih =>
    have hturn : (first + k) % n = p ↔ first + k ≡ p [MOD n] := by
      rw [Nat.ModEq, Nat.mod_eq_of_lt hp]
    rw [turns_append, turns_one, List.count_append, List.count_singleton, ← Nat.add_assoc,
      Nat.count_succ, ← ih]
    simp only [beq_iff_eq, hturn]
    omega

/-- No turn is taken two times more often than another. -/
theorem count_turns_le (hp : p < n) (hq : q < n) (first k : ℕ) :
    (turns n first k).count p ≤ (turns n first k).count q + 1 := by
  have hn : 0 < n := by omega
  have hcount := count_turns hp first k
  have hcount' := count_turns hq first k
  simp only [Nat.count_modEq_card _ hn, Nat.mod_eq_of_lt hp, Nat.mod_eq_of_lt hq] at hcount hcount'
  split_ifs at hcount hcount' <;> omega

/-- In whole rounds every turn is taken once a round. -/
theorem count_turns_rounds (hp : p < n) (first rounds : ℕ) :
    (turns n first (rounds * n)).count p = rounds := by
  have hn : 0 < n := by omega
  have hcount := count_turns hp first (rounds * n)
  simp only [Nat.count_modEq_card _ hn, Nat.add_mul_div_right _ _ hn, Nat.add_mul_mod_self_right]
    at hcount
  omega

end Counts

end MarketplacePipeline.RoundRobin
