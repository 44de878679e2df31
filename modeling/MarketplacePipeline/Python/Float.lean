import MarketplacePipeline.Python.DateTime
import Mathlib.Algebra.Order.Floor.Ring
import Mathlib.Data.Int.Log
import Mathlib.Data.Rat.Floor
import Mathlib.Tactic.Linarith
import Mathlib.Tactic.NormNum
import Mathlib.Tactic.Positivity

/-!
# Floats

`PyFloat` is a `float`: a number of the format binary64, an infinity or a nan.  `ofMagnitude` rounds
to the nearest one, and to the one with an even mantissa between two, which makes an infinity of the
magnitudes from `overflowThreshold` on (`ofMagnitude_eq_inf_iff`).
-/

namespace MarketplacePipeline

/-- The integer nearest to a rational that is not negative, the even one of two. -/
def roundHalfEven (q : ℚ) : ℕ :=
  let floor := q.floor.toNat
  if q - floor < 1 / 2 then floor
  else if 1 / 2 < q - floor then floor + 1
  else if floor % 2 = 0 then floor
  else floor + 1

/-- A finite float: the sign, and `mantissa * 2 ^ exponent`. -/
structure FiniteFloat where
  negative : Bool
  mantissa : ℕ
  exponent : ℤ
  mantissa_lt : mantissa < 2 ^ 53
  exponent_mem : -1074 ≤ exponent ∧ exponent ≤ 971

namespace FiniteFloat

def magnitude (x : FiniteFloat) : ℚ := x.mantissa * 2 ^ x.exponent

def value (x : FiniteFloat) : ℚ := if x.negative then -x.magnitude else x.magnitude

end FiniteFloat

/-- A `float`. -/
inductive PyFloat
  | nan
  | inf (negative : Bool)
  | finite (x : FiniteFloat)

namespace PyFloat

/-- The exponent of the floats around a magnitude. -/
def exponentOf (q : ℚ) : ℤ := max (-1074) (Int.log 2 q - 52)

/-- The nearest float. -/
def ofMagnitude (negative : Bool) (q : ℚ) : PyFloat :=
  let mantissa := roundHalfEven (q / 2 ^ exponentOf q)
  if h : mantissa < 2 ^ 53 ∧ exponentOf q ≤ 971 then
    .finite ⟨negative, mantissa, exponentOf q, h.1, le_max_left _ _, h.2⟩
  else if h : mantissa = 2 ^ 53 ∧ exponentOf q ≤ 970 then
    -- the mantissa was rounded up to a power of two
    .finite ⟨negative, 2 ^ 52, exponentOf q + 1, by norm_num,
      (le_max_left _ _).trans (Int.le_add_one le_rfl), by omega⟩
  else .inf negative

def ofRat (q : ℚ) : PyFloat := ofMagnitude (q < 0) |q|

/-- `x <= y`. -/
def le : PyFloat → PyFloat → Bool
  | .nan, _ => false
  | _, .nan => false
  | .inf true, _ => true
  | _, .inf false => true
  | .finite x, .finite y => x.value ≤ y.value
  | _, _ => false

/-- `f"{x:.{digits}f}"`. -/
def formatFixed (digits : ℕ) : PyFloat → Str
  | .nan => "nan".toList
  | .inf negative => if negative then "-inf".toList else "inf".toList
  | .finite x =>
    let n := roundHalfEven (x.magnitude * 10 ^ digits)
    (if x.negative then ['-'] else []) ++ (toString (n / 10 ^ digits)).toList ++
      if digits = 0 then [] else '.' :: padded digits (n % 10 ^ digits)

/-- The float, unless it is an infinity. -/
def finite? : PyFloat → Option PyFloat
  | .inf _ => none
  | x => some x

/-- The middle between the greatest float and `2 ^ 1024`. -/
def overflowThreshold : ℚ := 2 ^ 1024 - 2 ^ 970

end PyFloat

/-! ### Rounding -/

theorem le_floor {q : ℚ} (hq : 0 ≤ q) :
    (q.floor.toNat : ℚ) ≤ q ∧ q < q.floor.toNat + 1 := by
  have hnonneg : (0 : ℤ) ≤ q.floor := Rat.le_floor_iff.mpr hq
  have hcast : (q.floor.toNat : ℚ) = (q.floor : ℤ) := by exact_mod_cast Int.toNat_of_nonneg hnonneg
  rw [hcast]
  exact ⟨Int.floor_le q, Int.lt_floor_add_one q⟩

theorem roundHalfEven_le {q : ℚ} (hq : 0 ≤ q) {n : ℕ} (h : q ≤ n) : roundHalfEven q ≤ n := by
  obtain ⟨hfloor, -⟩ := le_floor hq
  unfold roundHalfEven
  dsimp only
  generalize q.floor.toNat = floor at *
  rcases (hfloor.trans h).lt_or_eq with hlt | heq
  · have hlt : floor < n := by exact_mod_cast hlt
    split_ifs <;> omega
  · rw [if_pos (by linarith)]
    exact_mod_cast heq.le

/-- An even number is reached from the middle below it on. -/
theorem le_roundHalfEven_iff {q : ℚ} (hq : 0 ≤ q) {n : ℕ} (heven : n % 2 = 0) :
    n ≤ roundHalfEven q ↔ (n : ℚ) - 1 / 2 ≤ q := by
  obtain ⟨hfloor, hceil⟩ := le_floor hq
  unfold roundHalfEven
  dsimp only
  generalize q.floor.toNat = floor at *
  rcases lt_trichotomy n (floor + 1) with hlt | heq | hgt
  · have hle : (n : ℚ) ≤ floor := by exact_mod_cast Nat.lt_add_one_iff.mp hlt
    refine iff_of_true ?_ (by linarith)
    split_ifs <;> omega
  · have hcast : (n : ℚ) = floor + 1 := by exact_mod_cast heq
    have hodd : ¬ floor % 2 = 0 := by omega
    rw [if_neg hodd, hcast]
    split_ifs with hbelow
    · exact iff_of_false (by omega) (by linarith)
    · exact iff_of_true (by omega) (by linarith)
    · exact iff_of_true (by omega) (by linarith)
  · have hge : (floor : ℚ) + 2 ≤ n := by exact_mod_cast (by omega : floor + 2 ≤ n)
    refine iff_of_false ?_ (by linarith)
    split_ifs <;> omega

namespace PyFloat

/-- The mantissa of a magnitude has 53 bits, or is rounded up to `2 ^ 53`. -/
theorem div_exponentOf_lt {q : ℚ} : q / 2 ^ exponentOf q < 2 ^ 53 := by
  have hpos : (0 : ℚ) < 2 ^ exponentOf q := zpow_pos (by norm_num) _
  have hlog := Int.lt_zpow_succ_log_self (by norm_num : 1 < 2) q
  have hle : Int.log 2 q + 1 ≤ 53 + exponentOf q := by
    unfold exponentOf
    omega
  rw [div_lt_iff₀ hpos]
  calc q < 2 ^ (Int.log 2 q + 1) := hlog
    _ ≤ 2 ^ (53 + exponentOf q) := zpow_le_zpow_right₀ (by norm_num) hle
    _ = 2 ^ 53 * 2 ^ exponentOf q := zpow_add₀ (by norm_num) 53 _

theorem mantissa_le {q : ℚ} (hq : 0 ≤ q) : roundHalfEven (q / 2 ^ exponentOf q) ≤ 2 ^ 53 := by
  have hnonneg : 0 ≤ q / 2 ^ exponentOf q := div_nonneg hq (zpow_pos (by norm_num) _).le
  exact roundHalfEven_le hnonneg (by exact_mod_cast div_exponentOf_lt.le)

/-- A magnitude overflows by its exponent, or when its mantissa is rounded up. -/
theorem ofMagnitude_eq_inf_iff_mantissa (negative : Bool) {q : ℚ} (hq : 0 ≤ q) :
    ofMagnitude negative q = .inf negative ↔ 971 < exponentOf q ∨
      exponentOf q = 971 ∧ 2 ^ 53 ≤ roundHalfEven (q / 2 ^ exponentOf q) := by
  have hle := mantissa_le hq
  unfold ofMagnitude
  dsimp only
  split_ifs with hfits hcarry
  · exact iff_of_false (by simp) (by omega)
  · exact iff_of_false (by simp) (by omega)
  · exact iff_of_true rfl (by omega)

/-- The powers of two around the greatest float, as multiples of half its distance to `2 ^ 1024`. -/
theorem exists_half : ∃ half : ℚ, 0 < half ∧ (2 : ℚ) ^ (971 : ℤ) = 2 * half ∧
    (2 : ℚ) ^ (1023 : ℤ) = 9007199254740992 * half ∧
    (2 : ℚ) ^ (1024 : ℤ) = 18014398509481984 * half ∧
    overflowThreshold = 18014398509481984 * half - half := by
  refine ⟨2 ^ 970, by positivity, ?_, ?_, ?_, ?_⟩
  · rw [show (971 : ℤ) = 1 + (970 : ℕ) from rfl, zpow_add₀ (by norm_num), zpow_natCast, zpow_one]
  · rw [show (1023 : ℤ) = (53 : ℕ) + (970 : ℕ) from rfl, zpow_add₀ (by norm_num), zpow_natCast,
      zpow_natCast, show (2 : ℚ) ^ 53 = 9007199254740992 by norm_num]
  · rw [show (1024 : ℤ) = (54 : ℕ) + (970 : ℕ) from rfl, zpow_add₀ (by norm_num), zpow_natCast,
      zpow_natCast, show (2 : ℚ) ^ 54 = 18014398509481984 by norm_num]
  · rw [overflowThreshold, show 1024 = 54 + 970 from rfl, pow_add,
      show (2 : ℚ) ^ 54 = 18014398509481984 by norm_num]

/-- **The magnitudes that overflow.** -/
theorem ofMagnitude_eq_inf_iff (negative : Bool) {q : ℚ} (hq : 0 ≤ q) :
    ofMagnitude negative q = .inf negative ↔ overflowThreshold ≤ q := by
  have hhigh := Int.lt_zpow_succ_log_self (by norm_num : 1 < 2) q
  push_cast at hhigh
  obtain ⟨half, hhalf, h971, h1023, h1024, hthreshold⟩ := exists_half
  rw [ofMagnitude_eq_inf_iff_mantissa negative hq, hthreshold]
  rcases lt_trichotomy (Int.log 2 q) 1023 with hlt | heq | hgt
  · have hexponent : exponentOf q < 971 := by
      unfold exponentOf
      omega
    have hsmall : q < 2 ^ (1023 : ℤ) :=
      hhigh.trans_le (zpow_le_zpow_right₀ (by norm_num) (by omega))
    rw [h1023] at hsmall
    refine iff_of_false (by omega) fun h => ?_
    linarith only [hsmall, hhalf, h]
  · have hexponent : exponentOf q = 971 := by
      unfold exponentOf
      omega
    have hnonneg : 0 ≤ q / 2 ^ (971 : ℤ) := div_nonneg hq (zpow_pos (by norm_num) _).le
    have hmantissa := le_roundHalfEven_iff (n := 2 ^ 53) hnonneg (by norm_num)
    rw [le_div_iff₀ (zpow_pos (by norm_num) _), h971] at hmantissa
    rw [hexponent, or_iff_right (lt_irrefl 971), and_iff_right rfl, h971, hmantissa]
    push_cast
    constructor
    · intro h
      linarith only [h]
    · intro h
      linarith only [h]
  · have hexponent : 971 < exponentOf q := by
      unfold exponentOf
      omega
    have hpos : 0 < q := by
      refine hq.lt_of_ne ?_
      rintro rfl
      rw [Int.log_zero_right] at hgt
      omega
    have hlow := Int.zpow_log_le_self (by norm_num : 1 < 2) hpos
    push_cast at hlow
    have hlarge : (2 : ℚ) ^ (1024 : ℤ) ≤ q :=
      (zpow_le_zpow_right₀ (by norm_num) (by omega)).trans hlow
    rw [h1024] at hlarge
    refine iff_of_true (Or.inl hexponent) ?_
    linarith only [hlarge, hhalf]

theorem le_overflowThreshold : 2 ^ 53 ≤ overflowThreshold := by
  have hle : (1 : ℚ) ≤ 2 ^ 970 := one_le_pow₀ (by norm_num)
  rw [overflowThreshold, show 1024 = 54 + 970 from rfl, pow_add]
  generalize (2 : ℚ) ^ 970 = half at *
  norm_num
  linarith only [hle]

theorem finite?_ofRat_eq_none_iff (q : ℚ) :
    (ofRat q).finite? = none ↔ overflowThreshold ≤ |q| := by
  rw [← ofMagnitude_eq_inf_iff (decide (q < 0)) (abs_nonneg q)]
  unfold ofRat ofMagnitude finite?
  dsimp only
  split_ifs <;> simp

end PyFloat

end MarketplacePipeline
