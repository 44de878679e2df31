import MarketplacePipeline.Algorithm.Blocks
import MarketplacePipeline.Python.DateTime
import Mathlib.Data.Char
import Mathlib.Data.List.Lex

/-!
# The order of times as texts

Texts of `isoformat()` are compared character by character, times by their `instant`.  Both orders
are the order of the parts of the time, from the year to the microsecond, if the offset is that of
UTC (`isoformat_lt_iff_parts`, `instant_lt_iff_parts`), so they are the same
(`isoformat_le_iff_instant_le`).
-/

namespace MarketplacePipeline

open Blocks

/-! ### Numbers in digits -/

theorem digit_lt_digit_iff {m n : ℕ} (hm : m < 10) (hn : n < 10) : digit m < digit n ↔ m < n := by
  have hall : ∀ m < 10, ∀ n < 10, digit m < digit n ↔ m < n := by decide
  exact hall m hm n hn

theorem digit_inj {m n : ℕ} (hm : m < 10) (hn : n < 10) : digit m = digit n ↔ m = n := by
  have hall : ∀ m < 10, ∀ n < 10, digit m = digit n ↔ m = n := by decide
  exact hall m hm n hn

/-- Texts that begin with numbers of the same width are compared by these first. -/
theorem padded_append_lt_iff {width m n : ℕ} (hm : m < 10 ^ width) (hn : n < 10 ^ width)
    (x y : Str) : padded width m ++ x < padded width n ++ y ↔ m < n ∨ m = n ∧ x < y := by
  induction width generalizing m n x y with
  | zero =>
    obtain rfl : m = 0 := by omega
    obtain rfl : n = 0 := by omega
    simp [padded]
  | succ width ih =>
    rw [pow_succ] at hm hn
    have hm10 : m % 10 < 10 := Nat.mod_lt m (by omega)
    have hn10 : n % 10 < 10 := Nat.mod_lt n (by omega)
    rw [padded, padded, List.append_assoc, List.append_assoc, List.singleton_append,
      List.singleton_append, ih (by omega) (by omega), List.cons_lt_cons_iff,
      digit_lt_digit_iff hm10 hn10, digit_inj hm10 hn10]
    by_cases hxy : x < y
    · simp only [hxy, and_true]
      omega
    · simp only [hxy, and_false, or_false]
      omega

/-- The same with a separator behind the numbers. -/
theorem padded_cons_lt_iff {width m n : ℕ} (hm : m < 10 ^ width) (hn : n < 10 ^ width) {c : Char}
    {x y : Str} : padded width m ++ c :: x < padded width n ++ c :: y ↔
      m < n ∨ m = n ∧ x < y := by
  rw [padded_append_lt_iff hm hn, List.cons_lt_cons_iff]
  simp only [lt_irrefl, false_or, true_and]

namespace DateTimeFields

variable {f g : DateTimeFields}

/-- What `isoformat` writes, but for the offset. -/
def parts (f : DateTimeFields) : List ℕ :=
  [f.year, f.month, f.day, f.hour, f.minute, f.second, f.microsecond]

/-! ### As texts -/

/-- The fraction is compared as a number also where it is left out. -/
theorem formatFraction_lt_iff {m n : ℕ} (hm : m < 1000000) (hn : n < 1000000) :
    formatFraction m ++ formatOffset 0 < formatFraction n ++ formatOffset 0 ↔ m < n := by
  have hoffset : formatOffset 0 = '+' :: "00:00".toList := by decide
  -- the sign of the offset is before the point
  have hsign : '+' < '.' := by decide
  unfold formatFraction
  rw [hoffset]
  split_ifs with hm0 hn0 hn0
  · simp [hm0, hn0]
  · rw [List.nil_append, List.cons_append, List.cons_lt_cons_iff]
    exact iff_of_true (Or.inl hsign) (by omega)
  · rw [List.nil_append, List.cons_append, List.cons_lt_cons_iff]
    exact iff_of_false (by simp) (by omega)
  · rw [List.cons_append, List.cons_append, List.cons_lt_cons_iff,
      padded_append_lt_iff (by omega) (by omega)]
    simp

theorem isoformat_lt_iff_parts (hf : f.Valid) (hg : g.Valid) (hf0 : f.utcoffset = 0)
    (hg0 : g.utcoffset = 0) : f.isoformat < g.isoformat ↔ f.parts < g.parts := by
  have hday : ∀ {f : DateTimeFields}, f.Valid → f.day < 10 ^ 2 := by
    intro f hf
    have hle := hf.day.2
    unfold daysInMonth at hle
    split_ifs at hle <;> omega
  have hyear := hf.year
  have hmonth := hf.month
  have hhour := hf.hour
  have hminute := hf.minute
  have hsecond := hf.second
  have hyear' := hg.year
  have hmonth' := hg.month
  have hhour' := hg.hour
  have hminute' := hg.minute
  have hsecond' := hg.second
  unfold isoformat parts
  rw [hf0, hg0, padded_cons_lt_iff (by omega) (by omega), padded_cons_lt_iff (by omega) (by omega),
    padded_cons_lt_iff (hday hf) (hday hg), padded_cons_lt_iff (by omega) (by omega),
    padded_cons_lt_iff (by omega) (by omega), padded_append_lt_iff (by omega) (by omega),
    formatFraction_lt_iff hf.microsecond hg.microsecond]
  simp only [List.cons_lt_cons_iff, List.not_lt_nil, and_false, or_false]

/-! ### As instants -/

def daysInYear (year : ℕ) : ℕ := if isLeap year then 366 else 365

theorem isLeap_iff (year : ℕ) :
    isLeap year = true ↔ year % 4 = 0 ∧ (year % 100 ≠ 0 ∨ year % 400 = 0) := by
  rw [isLeap, decide_eq_true_iff]

/-- The quotients by 4, 100 and 400 grow in the years that they divide. -/
theorem daysBeforeYear_succ (i : ℕ) :
    daysBeforeYear (i + 1) + daysInYear (i + 1) = daysBeforeYear (i + 2) := by
  have hdiv : ∀ n, (i + 1) / n = i / n + if (i + 1) % n = 0 then 1 else 0 := by
    intro n
    simp only [Nat.succ_div, Nat.dvd_iff_mod_eq_zero]
  have hle : i / 100 ≤ i / 4 := Nat.div_le_div_left (by omega) (by omega)
  have h100 : (i + 1) % 100 = 0 → (i + 1) % 4 = 0 := by omega
  have h400 : (i + 1) % 400 = 0 → (i + 1) % 100 = 0 := by omega
  unfold daysBeforeYear daysInYear
  simp only [isLeap_iff]
  rw [show i + 2 - 1 = i + 1 from rfl, Nat.add_sub_cancel, hdiv 4, hdiv 100, hdiv 400]
  split_ifs <;> omega

theorem daysBeforeMonth_succ (year i : ℕ) :
    daysBeforeMonth year (i + 1) + daysInMonth year (i + 1) = daysBeforeMonth year (i + 2) := by
  unfold daysBeforeMonth
  rw [show i + 2 - 1 = i + 1 from rfl, show i + 1 - 1 = i from rfl, List.range_succ]
  simp

/-- The last day of December is the last one of the year. -/
theorem daysBeforeMonth_thirteen (year : ℕ) : daysBeforeMonth year 13 = daysInYear year := by
  unfold daysBeforeMonth daysInYear
  cases hleap : isLeap year <;> simp [List.range_succ, daysInMonth, hleap]

/-- The months of a year do not overlap. -/
theorem apart_months (year : ℕ) :
    Apart (fun i => daysBeforeMonth year (i + 1)) (fun i => daysInMonth year (i + 1)) :=
  apart_of_succ fun i => (daysBeforeMonth_succ year i).le

theorem apart_years :
    Apart (fun i => daysBeforeYear (i + 1)) (fun i => daysInYear (i + 1)) :=
  apart_of_succ fun i => (daysBeforeYear_succ i).le

/-- The days of the year before a day. -/
def dayOfYear (f : DateTimeFields) : ℕ := daysBeforeMonth f.year f.month + (f.day - 1)

theorem dayOfYear_lt (hf : f.Valid) : f.dayOfYear < daysInYear f.year := by
  obtain ⟨month, hmonth⟩ := Nat.exists_eq_add_of_le' hf.month.1
  have hlast : month < 12 := by
    have hle := hf.month.2
    omega
  have hyear := (apart_months f.year hlast).trans_eq (daysBeforeMonth_thirteen f.year)
  have hday := hf.day
  unfold dayOfYear
  rw [hmonth] at hday ⊢
  dsimp only at hyear
  omega

theorem toordinal_sub_one (hf : f.Valid) :
    f.toordinal - 1 = daysBeforeYear f.year + f.dayOfYear := by
  have hday := hf.day.1
  unfold toordinal dayOfYear
  omega

/-- The days of the calendar in the order of their years, months and days. -/
theorem toordinal_lt_iff (hf : f.Valid) (hg : g.Valid) :
    f.toordinal - 1 < g.toordinal - 1 ↔ f.year < g.year ∨
      f.year = g.year ∧ (f.month < g.month ∨ f.month = g.month ∧ f.day < g.day) := by
  have hdayf := hf.day
  have hdayg := hg.day
  have hlastf := dayOfYear_lt hf
  have hlastg := dayOfYear_lt hg
  obtain ⟨year, hyear⟩ := Nat.exists_eq_add_of_le' hf.year.1
  obtain ⟨year', hyear'⟩ := Nat.exists_eq_add_of_le' hg.year.1
  obtain ⟨month, hmonth⟩ := Nat.exists_eq_add_of_le' hf.month.1
  obtain ⟨month', hmonth'⟩ := Nat.exists_eq_add_of_le' hg.month.1
  rw [toordinal_sub_one hf, toordinal_sub_one hg]
  rw [hyear] at hlastf ⊢
  rw [hyear'] at hlastg ⊢
  rw [add_lt_add_iff apart_years hlastf hlastg, Nat.add_lt_add_iff_right,
    Nat.add_right_cancel_iff]
  refine or_congr_right (and_congr_right fun heq => ?_)
  rw [hmonth, hyear] at hdayf
  rw [hmonth', hyear', ← heq] at hdayg
  unfold dayOfYear
  rw [hmonth, hmonth', hyear, hyear', ← heq,
    add_lt_add_iff (apart_months (year + 1)) (by omega) (by omega), Nat.add_lt_add_iff_right,
    Nat.add_right_cancel_iff]
  refine or_congr_right (and_congr_right fun _ => ?_)
  omega

theorem toordinal_inj (hf : f.Valid) (hg : g.Valid) :
    f.toordinal - 1 = g.toordinal - 1 ↔ f.year = g.year ∧ f.month = g.month ∧ f.day = g.day := by
  have hlt := toordinal_lt_iff hf hg
  have hgt := toordinal_lt_iff hg hf
  omega

/-- A time of day, in microseconds. -/
def timeOfDay (f : DateTimeFields) : ℕ :=
  f.hour * 3600000000 + (f.minute * 60000000 + (f.second * 1000000 + f.microsecond))

theorem timeOfDay_lt (hf : f.Valid) : f.timeOfDay < 86400000000 := by
  have hhour := hf.hour
  have hminute := hf.minute
  have hsecond := hf.second
  have hmicrosecond := hf.microsecond
  unfold timeOfDay
  omega

theorem timeOfDay_lt_iff (hf : f.Valid) (hg : g.Valid) : f.timeOfDay < g.timeOfDay ↔
    [f.hour, f.minute, f.second, f.microsecond] <
      [g.hour, g.minute, g.second, g.microsecond] := by
  have hminute := hf.minute
  have hsecond := hf.second
  have hmicrosecond := hf.microsecond
  have hminute' := hg.minute
  have hsecond' := hg.second
  have hmicrosecond' := hg.microsecond
  unfold timeOfDay
  rw [mul_add_lt_mul_add_iff (by omega) (by omega), mul_add_lt_mul_add_iff (by omega) (by omega),
    mul_add_lt_mul_add_iff hmicrosecond hmicrosecond']
  simp only [List.cons_lt_cons_iff, List.not_lt_nil, and_false, or_false]

theorem instant_eq (hf : f.Valid) (hf0 : f.utcoffset = 0) :
    f.instant = ((f.toordinal - 1) * 86400000000 + f.timeOfDay : ℕ) := by
  have hpos : 1 ≤ f.toordinal := by
    have hday := hf.day.1
    unfold toordinal
    omega
  unfold instant timeOfDay
  rw [hf0]
  push_cast [hpos]
  ring

theorem instant_lt_iff_parts (hf : f.Valid) (hg : g.Valid) (hf0 : f.utcoffset = 0)
    (hg0 : g.utcoffset = 0) : f.instant < g.instant ↔ f.parts < g.parts := by
  rw [parts, parts, List.cons_lt_cons_iff, List.cons_lt_cons_iff, List.cons_lt_cons_iff,
    instant_eq hf hf0, instant_eq hg hg0, Nat.cast_lt,
    mul_add_lt_mul_add_iff (timeOfDay_lt hf) (timeOfDay_lt hg), toordinal_lt_iff hf hg,
    toordinal_inj hf hg, timeOfDay_lt_iff hf hg]
  -- the date comes first, whatever the times of day are
  by_cases htime : [f.hour, f.minute, f.second, f.microsecond] <
      [g.hour, g.minute, g.second, g.microsecond]
  · simp only [htime, and_true]
    omega
  · simp only [htime, and_false, or_false]

end DateTimeFields

/-- **Times in UTC are in the order of their texts.** -/
theorem isoformat_le_iff_instant_le {a b : DateTime} (ha : a.utcoffset = 0)
    (hb : b.utcoffset = 0) : a.isoformat ≤ b.isoformat ↔ a.instant ≤ b.instant := by
  rw [← not_lt, ← not_lt, DateTimeFields.isoformat_lt_iff_parts b.valid a.valid hb ha,
    DateTimeFields.instant_lt_iff_parts b.valid a.valid hb ha]

end MarketplacePipeline
