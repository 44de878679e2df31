import MarketplacePipeline.Python.FloatRepr

/-!
# What is rounded to a float

A magnitude is a whole multiple of a power of two (`Normal`), and whatever lies closer to it than to
its neighbours is rounded to it (`Normal.nearest_eq`).  A decimal with seventeen digits lies so
close, so `Decimal.shortest` finds one (`shortest_spec`).
-/

namespace MarketplacePipeline

/-! ### Rounding to integers -/

theorem roundHalfEven_of_abs_lt {q : ℚ} (hq : 0 ≤ q) {n : ℕ} (h : |q - n| < 1 / 2) :
    roundHalfEven q = n := by
  obtain ⟨hlow, hhigh⟩ := abs_lt.mp h
  obtain ⟨hfloor, hceil⟩ := le_floor hq
  unfold roundHalfEven
  dsimp only
  generalize q.floor.toNat = floor at *
  rcases le_or_gt (n : ℚ) q with hn | hn
  · have heq : floor = n := by
      apply le_antisymm
      · have hlt : (floor : ℚ) < n + 1 := by linarith
        exact Nat.lt_succ_iff.mp (by exact_mod_cast hlt)
      · have hlt : (n : ℚ) < floor + 1 := by linarith
        exact Nat.lt_succ_iff.mp (by exact_mod_cast hlt)
    rw [heq, if_pos (by linarith)]
  · have heq : floor + 1 = n := by
      apply le_antisymm
      · have hlt : (floor : ℚ) < n := by linarith
        exact Nat.succ_le_of_lt (by exact_mod_cast hlt)
      · have hlt : (n : ℚ) < floor + 1 + 1 := by linarith
        exact Nat.lt_succ_iff.mp (by exact_mod_cast hlt)
    have hcast : (floor : ℚ) + 1 = n := by exact_mod_cast heq
    rw [if_neg (by linarith), if_pos (by linarith), heq]

@[simp] theorem roundHalfEven_natCast (n : ℕ) : roundHalfEven n = n :=
  roundHalfEven_of_abs_lt (Nat.cast_nonneg n) (by norm_num)

theorem abs_roundHalfEven_sub_le {q : ℚ} (hq : 0 ≤ q) : |(roundHalfEven q : ℚ) - q| ≤ 1 / 2 := by
  obtain ⟨hfloor, hceil⟩ := le_floor hq
  unfold roundHalfEven
  dsimp only
  generalize q.floor.toNat = floor at *
  rw [abs_le]
  split_ifs with hbelow habove heven
  · constructor <;> linarith
  · push_cast
    constructor <;> linarith
  · constructor <;> linarith
  · push_cast
    constructor <;> linarith

namespace PyFloat

/-! ### Magnitudes -/

/-- A magnitude in its normal form: all bits of the mantissa are used, but for the smallest
exponent. -/
structure Normal (q : ℚ) (mantissa : ℕ) (exponent : ℤ) : Prop where
  eq : q = mantissa * 2 ^ exponent
  pos : 0 < mantissa
  lt : mantissa < 2 ^ 53
  mem : -1074 ≤ exponent ∧ exponent ≤ 971
  full : exponent = -1074 ∨ 2 ^ 52 ≤ mantissa

theorem exponentOf_eq {q : ℚ} (hq : 0 < q) {e : ℤ} (he : -1074 ≤ e)
    (hlow : e = -1074 ∨ 2 ^ (52 + e) ≤ q) (hhigh : q < 2 ^ (53 + e)) : exponentOf q = e := by
  have hlog : Int.log 2 q < 53 + e :=
    (Int.lt_zpow_iff_log_lt (by norm_num) hq).mp (by exact_mod_cast hhigh)
  unfold exponentOf
  rcases hlow with rfl | hlow
  · omega
  · have hle : 52 + e ≤ Int.log 2 q :=
      (Int.zpow_le_iff_le_log (by norm_num) hq).mp (by exact_mod_cast hlow)
    omega

theorem two_zpow_pos (e : ℤ) : (0 : ℚ) < 2 ^ e := zpow_pos (by norm_num) e

theorem two_zpow_add (n : ℕ) [n.AtLeastTwo] (e : ℤ) :
    (2 : ℚ) ^ ((ofNat(n) : ℤ) + e) = 2 ^ (ofNat(n) : ℕ) * 2 ^ e := by
  rw [zpow_add₀ (by norm_num), zpow_ofNat]

variable {q d : ℚ} {mantissa : ℕ} {e : ℤ}

theorem Normal.div_eq (h : Normal q mantissa e) : q / 2 ^ e = mantissa := by
  rw [h.eq, mul_div_cancel_right₀ _ (two_zpow_pos e).ne']

theorem nearest_of_lt (hexponent : exponentOf d = e) (hround : roundHalfEven (d / 2 ^ e) = mantissa)
    (hlt : mantissa < 2 ^ 53) (he : e ≤ 971) : nearest d = some ((mantissa : ℚ) * 2 ^ e) := by
  subst hexponent hround
  unfold nearest ofMagnitude
  dsimp only
  rw [dif_pos ⟨hlt, he⟩]
  rfl

theorem nearest_of_carry (hexponent : exponentOf d = e)
    (hround : roundHalfEven (d / 2 ^ e) = 2 ^ 53) (he : e ≤ 970) :
    nearest d = some (((2 ^ 52 : ℕ) : ℚ) * 2 ^ (e + 1)) := by
  subst hexponent
  unfold nearest ofMagnitude
  dsimp only
  rw [dif_neg (by omega), dif_pos ⟨hround, he⟩]
  rfl

/-- Below the least mantissa the floats lie twice as close, so that a number is rounded up there to
a carry. -/
theorem Normal.nearest_below (h : Normal q mantissa e) (hleast : mantissa = 2 ^ 52)
    (he : e ≠ -1074) (hlow : q - 2 ^ e / 4 < d) (hhigh : d < 2 ^ (52 + e)) :
    nearest d = some q := by
  have hmem := h.mem
  have hpos := two_zpow_pos (e - 1)
  have hhalf : (2 : ℚ) ^ e = 2 * 2 ^ (e - 1) := by
    rw [← zpow_one_add₀ (by norm_num)]
    congr 1
    omega
  have hq : q = 2 ^ 53 * 2 ^ (e - 1) := by
    rw [h.eq, hleast, hhalf]
    push_cast
    ring
  have hlow' : (2 : ℚ) ^ (52 + (e - 1)) ≤ d := by
    rw [two_zpow_add 52]
    have hle : (0 : ℚ) ≤ (2 ^ 52 - 1) * 2 ^ (e - 1) := by positivity
    linarith
  have hhigh' : d < 2 ^ (53 + (e - 1)) := by
    rw [show 53 + (e - 1) = 52 + e by omega]
    exact hhigh
  have hdpos : 0 < d := (two_zpow_pos _).trans_le hlow'
  have hexponent := exponentOf_eq hdpos (by omega) (Or.inr hlow') hhigh'
  have hround : roundHalfEven (d / 2 ^ (e - 1)) = 2 ^ 53 := by
    apply roundHalfEven_of_abs_lt (div_nonneg hdpos.le hpos.le)
    rw [two_zpow_add 53] at hhigh'
    have hsub : d / 2 ^ (e - 1) - (2 ^ 53 : ℕ) = (d - 2 ^ 53 * 2 ^ (e - 1)) / 2 ^ (e - 1) := by
      rw [sub_div, mul_div_cancel_right₀ _ hpos.ne']
      norm_num
    rw [hsub, abs_div, abs_of_pos hpos, div_lt_iff₀ hpos, abs_of_neg (by linarith)]
    linarith
  rw [nearest_of_carry hexponent hround (by omega), h.eq, hleast, sub_add_cancel]

/-- What is closer to a magnitude than to its neighbours is rounded to it. -/
theorem Normal.nearest_eq (h : Normal q mantissa e) (hd : |d - q| < 2 ^ e / 2)
    (hlow : mantissa = 2 ^ 52 → q - 2 ^ e / 4 < d) : nearest d = some q := by
  have hpos := two_zpow_pos e
  have heq := h.eq
  have hone : (1 : ℚ) ≤ mantissa := by exact_mod_cast h.pos
  have hlt : (mantissa : ℚ) + 1 ≤ 2 ^ 53 := by exact_mod_cast h.lt
  obtain ⟨hbelow, habove⟩ := abs_lt.mp hd
  have hqpos : 2 ^ e ≤ q := by
    rw [heq]
    exact le_mul_of_one_le_left hpos.le hone
  have hdpos : 0 < d := by linarith
  have hdhigh : d < 2 ^ (53 + e) := by
    have hmul : (mantissa + 1) * 2 ^ e ≤ (2 : ℚ) ^ 53 * 2 ^ e :=
      mul_le_mul_of_nonneg_right hlt hpos.le
    rw [two_zpow_add 53]
    linarith
  -- either `d` has the exponent of `q`, or it lies below the least mantissa of this exponent
  by_cases hsame : e = -1074 ∨ 2 ^ (52 + e) ≤ d
  · have hexponent := exponentOf_eq hdpos h.mem.1 hsame hdhigh
    have hround : roundHalfEven (d / 2 ^ e) = mantissa := by
      apply roundHalfEven_of_abs_lt (div_nonneg hdpos.le hpos.le)
      rw [← h.div_eq, ← sub_div, abs_div, abs_of_pos hpos, div_lt_iff₀ hpos]
      linarith
    rw [nearest_of_lt hexponent hround h.lt h.mem.2, ← heq]
  · push Not at hsame
    obtain ⟨hne, hdlow⟩ := hsame
    have hfull : (2 : ℚ) ^ 52 ≤ mantissa := by exact_mod_cast h.full.resolve_left hne
    have hleast : mantissa = 2 ^ 52 := by
      apply le_antisymm _ (h.full.resolve_left hne)
      rw [two_zpow_add 52] at hdlow
      have hmul : ((mantissa : ℚ) - 2 ^ 52) * 2 ^ e < 1 * 2 ^ e := by linarith
      have hsub := lt_of_mul_lt_mul_right hmul hpos.le
      have hcast : (mantissa : ℚ) < 2 ^ 52 + 1 := by linarith
      exact Nat.lt_succ_iff.mp (by exact_mod_cast hcast)
    exact h.nearest_below hleast hne (hlow hleast) hdlow

theorem isMagnitude_natCast {n : ℕ} (h : n < 2 ^ 53) : IsMagnitude n :=
  ⟨⟨false, n, 0, h, by norm_num⟩, by simp [FiniteFloat.magnitude]⟩

/-- A magnitude is not rounded. -/
theorem Normal.nearest_self (h : Normal q mantissa e) : nearest q = some q := by
  have hpos := two_zpow_pos e
  apply h.nearest_eq
  · rw [sub_self, abs_zero]
    linarith
  · intro _
    linarith

/-- Every magnitude but zero has a normal form. -/
theorem IsMagnitude.normal (h : IsMagnitude q) (hq : 0 < q) :
    ∃ mantissa e, Normal q mantissa e := by
  obtain ⟨x, hx⟩ := h
  have hlt : (x.mantissa : ℚ) < 2 ^ 53 := by exact_mod_cast x.mantissa_lt
  have hpos := two_zpow_pos x.exponent
  have hbound : q < 2 ^ (53 + x.exponent) := by
    rw [← hx, two_zpow_add 53]
    exact mul_lt_mul_of_pos_right hlt hpos
  have hlog : Int.log 2 q < 53 + x.exponent :=
    (Int.lt_zpow_iff_log_lt (by norm_num) hq).mp (by exact_mod_cast hbound)
  have hmem := x.exponent_mem
  -- the mantissa may have leading zeros, so the exponent of `q` may be smaller than that of `x`
  have hle : exponentOf q ≤ x.exponent := by
    unfold exponentOf
    omega
  have hge : -1074 ≤ exponentOf q := le_max_left _ _
  obtain ⟨shift, hshift⟩ := Int.le.dest hle
  have heq : q = (x.mantissa * 2 ^ shift : ℕ) * 2 ^ exponentOf q := by
    have hmagnitude : q = x.mantissa * 2 ^ (exponentOf q + shift) := by rw [hshift, ← hx]; rfl
    rw [zpow_add₀ (by norm_num), zpow_natCast] at hmagnitude
    refine hmagnitude.trans ?_
    push_cast
    ring
  refine ⟨x.mantissa * 2 ^ shift, exponentOf q, heq, ?_, ?_, ⟨hge, hle.trans hmem.2⟩, ?_⟩
  · apply Nat.pos_of_ne_zero
    intro hzero
    rw [hzero, Nat.cast_zero, zero_mul] at heq
    exact hq.ne' heq
  · have hdiv : q / 2 ^ exponentOf q < 2 ^ 53 := div_exponentOf_lt
    rw [div_lt_iff₀ (two_zpow_pos _)] at hdiv
    have hcast : ((x.mantissa * 2 ^ shift : ℕ) : ℚ) * 2 ^ exponentOf q <
        2 ^ 53 * 2 ^ exponentOf q := heq ▸ hdiv
    exact_mod_cast lt_of_mul_lt_mul_right hcast (two_zpow_pos _).le
  · by_cases hsmall : exponentOf q = -1074
    · exact Or.inl hsmall
    · right
      have hexp : exponentOf q = Int.log 2 q - 52 := by
        unfold exponentOf at hsmall ⊢
        omega
      have hpow : (2 : ℚ) ^ (52 + exponentOf q) ≤ q := by
        have := Int.zpow_log_le_self (by norm_num : 1 < 2) hq
        rw [hexp, show 52 + (Int.log 2 q - 52) = Int.log 2 q by omega]
        exact_mod_cast this
      rw [two_zpow_add 52] at hpow
      have hcast : (2 : ℚ) ^ 52 * 2 ^ exponentOf q ≤
          ((x.mantissa * 2 ^ shift : ℕ) : ℚ) * 2 ^ exponentOf q := hpow.trans heq.le
      exact_mod_cast le_of_mul_le_mul_right hcast (two_zpow_pos _)

/-- Seventeen digits are enough. -/
theorem Normal.nearest_of_close (h : Normal q mantissa e) (hd : |d - q| * (2 * 10 ^ 16) ≤ q) :
    nearest d = some q := by
  have hpos := two_zpow_pos e
  have heq := h.eq
  have hlt : q < 2 ^ 53 * 2 ^ e := by
    rw [heq]
    exact mul_lt_mul_of_pos_right (by exact_mod_cast h.lt) hpos
  -- `2 ^ 53 < 10 ^ 16`, so that half a unit of the seventeenth digit is less than half of `2 ^ e`
  have hclose : |d - q| < 2 ^ e / 2 := by
    norm_num at hd hlt ⊢
    linarith
  refine h.nearest_eq hclose fun hleast => ?_
  have hq : q = 2 ^ 52 * 2 ^ e := by
    rw [heq, hleast]
    norm_num
  have hle := neg_abs_le (d - q)
  norm_num at hd hq
  linarith

theorem nearest_zero : nearest 0 = some 0 := by
  have hround : roundHalfEven ((0 : ℚ) / 2 ^ exponentOf 0) = 0 := by
    rw [zero_div]
    exact_mod_cast roundHalfEven_natCast 0
  have hexponent : exponentOf 0 = -52 := by
    unfold exponentOf
    rw [Int.log_zero_right]
    rfl
  rw [hexponent] at hround
  rw [nearest_of_lt hexponent hround (by norm_num) (by norm_num), Nat.cast_zero, zero_mul]

theorem IsMagnitude.nearest_self (h : IsMagnitude q) (hq : 0 ≤ q) : nearest q = some q := by
  rcases hq.eq_or_lt with rfl | hpos
  · exact nearest_zero
  · obtain ⟨mantissa, e, hnormal⟩ := h.normal hpos
    exact hnormal.nearest_self

end PyFloat

namespace Decimal

open PyFloat

variable {q : ℚ}

theorem ten_zpow_pos (e : ℤ) : (0 : ℚ) < 10 ^ e := zpow_pos (by norm_num) e

/-- The nearer neighbour with seventeen digits. -/
theorem close_neighbour (hq : 0 < q) :
    |(⟨roundHalfEven (q / 10 ^ (pointOf q - 17)), pointOf q - 17⟩ : Decimal).value - q| *
      (2 * 10 ^ 16) ≤ q := by
  have hpos := ten_zpow_pos (pointOf q - 17)
  have hround := abs_roundHalfEven_sub_le (div_nonneg hq.le hpos.le)
  generalize roundHalfEven (q / 10 ^ (pointOf q - 17)) = near at *
  have hfirst : (10 : ℚ) ^ (pointOf q - 17) * 10 ^ 16 ≤ q := by
    have hlog := Int.zpow_log_le_self (by norm_num : 1 < 10) hq
    have hsplit : (10 : ℚ) ^ Int.log 10 q = 10 ^ (pointOf q - 17) * 10 ^ 16 := by
      rw [← zpow_natCast, ← zpow_add₀ (by norm_num)]
      congr 1
      unfold pointOf
      push_cast
      omega
    rw [← hsplit]
    exact_mod_cast hlog
  have hvalue : (near : ℚ) * 10 ^ (pointOf q - 17) - q =
      (near - q / 10 ^ (pointOf q - 17)) * 10 ^ (pointOf q - 17) := by
    rw [sub_mul, div_mul_cancel₀ _ hpos.ne']
  show |(near : ℚ) * 10 ^ (pointOf q - 17) - q| * (2 * 10 ^ 16) ≤ q
  rw [hvalue, abs_mul, abs_of_pos hpos]
  have hmul := mul_le_mul_of_nonneg_right hround hpos.le
  linarith

/-- **Some decimal is found**, and it is rounded to the float. -/
theorem shortest_spec (h : IsMagnitude q) (hq : 0 < q) :
    ∃ d, shortest q = some d ∧ nearest d.value = some q ∧ 0 < d.digits := by
  obtain ⟨mantissa, e, hnormal⟩ := h.normal hq
  have hfound : (shortest q).isSome := by
    unfold shortest
    rw [List.find?_isSome]
    -- the nearer neighbour with seventeen digits is one of the candidates
    refine ⟨_, List.mem_flatMap.mpr ⟨16, by simp, List.mem_cons_self⟩, ?_⟩
    exact decide_eq_true (hnormal.nearest_of_close (close_neighbour hq))
  obtain ⟨d, hd⟩ := Option.isSome_iff_exists.mp hfound
  have hnearest : nearest d.value = some q := by
    unfold shortest at hd
    simpa using List.find?_some hd
  refine ⟨d, hd, hnearest, Nat.pos_of_ne_zero fun hzero => ?_⟩
  rw [value, hzero, Nat.cast_zero, zero_mul, nearest_zero] at hnearest
  exact hq.ne (Option.some.inj hnearest)

end Decimal

end MarketplacePipeline
