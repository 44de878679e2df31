import MarketplacePipeline.Python.Equiv.DateTime

/-!
# Moments as times in UTC

`DateTimeFields.utc t` are the attributes of the `datetime` in UTC at a moment `t`, which has a date
from the year 1 to the year 9999 (`instant_utc`).  `isoformatZ` writes it as pydantic does, and the
text is read as the moment (`readZ_isoformatZ`).
-/

namespace MarketplacePipeline

open Blocks

namespace DateTimeFields

/-- `_ord2ymd`, of a day that is counted from 0. -/
def ofDay (day : ℕ) : ℕ × ℕ × ℕ :=
  let year := blockOf (fun i => daysBeforeYear (i + 1)) 9998 day + 1
  let dayOfYear := day - daysBeforeYear year
  let month := blockOf (fun i => daysBeforeMonth year (i + 1)) 11 dayOfYear + 1
  (year, month, dayOfYear - daysBeforeMonth year month + 1)

/-- The time in UTC, in microseconds from the start of the year 1 on. -/
def utc (t : Timestamp) : DateTimeFields :=
  let microseconds := t.toNat
  let seconds := microseconds / 1000000
  let (year, month, day) := ofDay (seconds / 86400)
  { year := year, month := month, day := day, hour := seconds / 3600 % 24
    minute := seconds / 60 % 60, second := seconds % 60, microsecond := microseconds % 1000000 }

/-- The moments from `datetime.min` to `datetime.max`. -/
def InRange (t : ℤ) : Prop := 0 ≤ t ∧ t < 3652059 * 86400000000

instance (t : ℤ) : Decidable (InRange t) := inferInstanceAs (Decidable (_ ∧ _))

/-- `value.isoformat()`, with `Z` for the offset of UTC. -/
def isoformatZ (f : DateTimeFields) : Str :=
  padded 4 f.year ++ '-' :: (padded 2 f.month ++ '-' :: (padded 2 f.day ++
    'T' :: (padded 2 f.hour ++ ':' :: (padded 2 f.minute ++ ':' :: (padded 2 f.second ++
      (formatFraction f.microsecond ++ ['Z']))))))

/-! ### Dates -/

/-- The year, the month and the day of a day, with their ranges. -/
theorem ofDay_spec {day : ℕ} (h : day < 3652059) :
    let (year, month, dayOfMonth) := ofDay day
    (1 ≤ year ∧ year ≤ 9999) ∧ (1 ≤ month ∧ month ≤ 12) ∧
      (1 ≤ dayOfMonth ∧ dayOfMonth ≤ daysInMonth year month) ∧
      daysBeforeYear year + daysBeforeMonth year month + dayOfMonth = day + 1 := by
  have hfirst : daysBeforeYear (0 + 1) ≤ day := by
    rw [show daysBeforeYear (0 + 1) = 0 by decide]
    exact Nat.zero_le day
  have hend : day < daysBeforeYear (9998 + 1 + 1) := h.trans_eq (by decide)
  obtain ⟨hyear, hnext⟩ := @blockOf_spec (fun i => daysBeforeYear (i + 1)) 9998 day hfirst hend
  have hle := blockOf_le (fun i => daysBeforeYear (i + 1)) 9998 day
  unfold ofDay
  dsimp only
  generalize blockOf (fun i => daysBeforeYear (i + 1)) 9998 day = i at *
  rw [← daysBeforeYear_succ] at hnext
  have hlast : day - daysBeforeYear (i + 1) < daysBeforeMonth (i + 1) (11 + 2) := by
    rw [daysBeforeMonth_thirteen]
    omega
  generalize hdayOfYear : day - daysBeforeYear (i + 1) = dayOfYear at *
  obtain ⟨hmonth, hafter⟩ := @blockOf_spec (fun j => daysBeforeMonth (i + 1) (j + 1)) 11 dayOfYear
    (Nat.zero_le dayOfYear) hlast
  have hle' := blockOf_le (fun j => daysBeforeMonth (i + 1) (j + 1)) 11 dayOfYear
  generalize blockOf (fun j => daysBeforeMonth (i + 1) (j + 1)) 11 dayOfYear = j at *
  rw [← daysBeforeMonth_succ] at hafter
  omega

variable {t : ℤ}

theorem utcoffset_utc (t : Timestamp) : (utc t).utcoffset = 0 := rfl

theorem InRange.day_lt (h : InRange t) : t.toNat / 1000000 / 86400 < 3652059 := by
  have hlt := h.2
  omega

theorem valid_utc (h : InRange t) : (utc t).Valid := by
  have hday := h.day_lt
  have hspec := ofDay_spec hday
  unfold utc
  dsimp only
  generalize ofDay (t.toNat / 1000000 / 86400) = date at *
  obtain ⟨year, month, day⟩ := date
  obtain ⟨hyear, hmonth, hday, -⟩ := hspec
  exact ⟨hyear, hmonth, hday, Nat.mod_lt _ (by norm_num), Nat.mod_lt _ (by norm_num),
    Nat.mod_lt _ (by norm_num), Nat.mod_lt _ (by norm_num), by norm_num⟩

/-- The time in UTC denotes the moment. -/
theorem instant_utc (h : InRange t) : (utc t).instant = t := by
  rw [instant_eq (valid_utc h) (utcoffset_utc t)]
  have hday := h.day_lt
  have hnonneg := h.1
  have hspec := ofDay_spec hday
  unfold utc toordinal timeOfDay
  dsimp only
  generalize ofDay (t.toNat / 1000000 / 86400) = date at *
  obtain ⟨year, month, day⟩ := date
  obtain ⟨-, -, -, hordinal⟩ := hspec
  dsimp only
  rw [hordinal, Nat.add_sub_cancel]
  refine Eq.trans (congrArg Nat.cast ?_) (Int.toNat_of_nonneg hnonneg)
  omega

end DateTimeFields

/-! ### Texts -/

open DateTimeFields

/-- Reads the text of a time in UTC. -/
def readZ (text : Str) : Option Timestamp :=
  if text.getLast? = some 'Z' then
    match fromisoformat (text.dropLast ++ "+00:00".toList) with
    | .ok value => some value.instant
    | .error _ => none
  else none

theorem isoformat_eq_isoformatZ {f : DateTimeFields} (h : f.utcoffset = 0) :
    f.isoformat = f.isoformatZ.dropLast ++ "+00:00".toList := by
  have hoffset : formatOffset 0 = "+00:00".toList := by decide
  unfold isoformat isoformatZ
  rw [h, hoffset]
  simp [List.dropLast_append_of_ne_nil, List.dropLast_cons_of_ne_nil]

/-- **Round trip** of a moment. -/
theorem readZ_isoformatZ {t : Timestamp} (h : InRange t) : readZ (utc t).isoformatZ = some t := by
  have hlast : (utc t).isoformatZ.getLast? = some 'Z' := by
    unfold isoformatZ
    simp [List.getLast?_append, List.getLast?_cons]
  unfold readZ
  rw [if_pos hlast, ← isoformat_eq_isoformatZ (utcoffset_utc t)]
  have hread := fromisoformat_isoformat ⟨utc t, valid_utc h⟩
  dsimp only at hread
  rw [hread]
  exact congrArg some (instant_utc h)

end MarketplacePipeline
