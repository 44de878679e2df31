import MarketplacePipeline.Python.Error
import MarketplacePipeline.Domain.Product
import Mathlib.Algebra.Order.Ring.Int
import Mathlib.Tactic.Ring

/-!
# Aware datetimes

`DateTime` is a `datetime` with a time zone, whose `utcoffset()` is a number of microseconds.
`isoformat` writes it, and `fromisoformat` reads what `isoformat` wrote
(`fromisoformat_isoformat`).  `instant` is the moment it denotes.
-/

namespace MarketplacePipeline

/-- The decimal digit of `n`, for `n < 10`. -/
def digit (n : ℕ) : Char := Char.ofNat (48 + n)

/-- `f"{n:0{width}d}"`, for `n < 10 ^ width`. -/
def padded : (width n : ℕ) → Str
  | 0, _ => []
  | width + 1, n => padded width (n / 10) ++ [digit (n % 10)]

/-- The number of a digit. -/
def digitValue (c : Char) : Option ℕ :=
  if 48 ≤ c.toNat ∧ c.toNat ≤ 57 then some (c.toNat - 48) else none

/-- Reads the next `width` digits, after the number `acc` of the digits before them. -/
def readDigits : (width acc : ℕ) → Str → Option (ℕ × Str)
  | 0, acc, text => some (acc, text)
  | _ + 1, _, [] => none
  | width + 1, acc, c :: text => do readDigits width (10 * acc + (← digitValue c)) text

/-- Reads a character. -/
def readChar (c : Char) : Str → Option Str
  | [] => none
  | c' :: text => if c' = c then some text else none

theorem length_padded (width n : ℕ) : (padded width n).length = width := by
  induction width generalizing n with
  | zero => rfl
  | succ width ih => rw [padded, List.length_append, ih, List.length_singleton]

theorem digitValue_digit {n : ℕ} (h : n < 10) : digitValue (digit n) = some n := by
  have hall : ∀ n < 10, digitValue (digit n) = some n := by decide
  exact hall n h

theorem readDigits_cons (width acc : ℕ) (c : Char) (text : Str) :
    readDigits (width + 1) acc (c :: text) =
      (digitValue c).bind fun d => readDigits width (10 * acc + d) text := rfl

theorem readDigits_append (w₁ w₂ acc : ℕ) (text : Str) :
    readDigits (w₁ + w₂) acc text =
      (readDigits w₁ acc text).bind fun r => readDigits w₂ r.1 r.2 := by
  induction w₁ generalizing acc text with
  | zero => simp [readDigits]
  | succ w₁ ih =>
    rw [Nat.add_right_comm]
    cases text with
    | nil => rfl
    | cons c text =>
      rw [readDigits_cons, readDigits_cons]
      cases digitValue c with
      | none => rfl
      | some d => exact ih _ _

@[simp] theorem readDigits_padded {width n : ℕ} (h : n < 10 ^ width) (acc : ℕ) (rest : Str) :
    readDigits width acc (padded width n ++ rest) = some (acc * 10 ^ width + n, rest) := by
  induction width generalizing n acc rest with
  | zero =>
    obtain rfl : n = 0 := by omega
    simp [readDigits, padded]
  | succ width ih =>
    have hdiv : n / 10 < 10 ^ width := by
      rw [pow_succ] at h
      omega
    rw [readDigits_append, padded, List.append_assoc, ih hdiv]
    simp only [Option.bind_some, List.singleton_append, readDigits]
    rw [digitValue_digit (Nat.mod_lt n (by omega))]
    simp only [Option.bind_eq_bind, Option.bind_some, Option.some.injEq, Prod.mk.injEq, and_true]
    rw [pow_succ]
    have hn := Nat.div_add_mod n 10
    have hmul : 10 * (acc * 10 ^ width) = acc * (10 ^ width * 10) := by ring
    omega

@[simp] theorem readChar_cons (c : Char) (text : Str) : readChar c (c :: text) = some text :=
  if_pos rfl

/-! ### Datetimes -/

/-- The attributes of an aware `datetime`, with `utcoffset()` in microseconds. -/
structure DateTimeFields where
  year : ℕ
  month : ℕ
  day : ℕ
  hour : ℕ := 0
  minute : ℕ := 0
  second : ℕ := 0
  microsecond : ℕ := 0
  utcoffset : ℤ := 0
  deriving DecidableEq

namespace DateTimeFields

def isLeap (year : ℕ) : Bool := year % 4 = 0 ∧ (year % 100 ≠ 0 ∨ year % 400 = 0)

def daysInMonth (year month : ℕ) : ℕ :=
  if month = 2 then (if isLeap year then 29 else 28)
  else if month = 4 ∨ month = 6 ∨ month = 9 ∨ month = 11 then 30
  else 31

/-- The ranges that `datetime` and `timezone` check. -/
structure Valid (f : DateTimeFields) : Prop where
  year : 1 ≤ f.year ∧ f.year ≤ 9999
  month : 1 ≤ f.month ∧ f.month ≤ 12
  day : 1 ≤ f.day ∧ f.day ≤ daysInMonth f.year f.month
  hour : f.hour < 24
  minute : f.minute < 60
  second : f.second < 60
  microsecond : f.microsecond < 1000000
  utcoffset : f.utcoffset.natAbs < 86400000000

instance (f : DateTimeFields) : Decidable f.Valid :=
  decidable_of_iff
    ((1 ≤ f.year ∧ f.year ≤ 9999) ∧ (1 ≤ f.month ∧ f.month ≤ 12) ∧
      (1 ≤ f.day ∧ f.day ≤ daysInMonth f.year f.month) ∧ f.hour < 24 ∧ f.minute < 60 ∧
      f.second < 60 ∧ f.microsecond < 1000000 ∧ f.utcoffset.natAbs < 86400000000)
    ⟨fun ⟨h₁, h₂, h₃, h₄, h₅, h₆, h₇, h₈⟩ => ⟨h₁, h₂, h₃, h₄, h₅, h₆, h₇, h₈⟩,
      fun ⟨h₁, h₂, h₃, h₄, h₅, h₆, h₇, h₈⟩ => ⟨h₁, h₂, h₃, h₄, h₅, h₆, h₇, h₈⟩⟩

/-- The days before the first of January of a year. -/
def daysBeforeYear (year : ℕ) : ℕ :=
  (year - 1) * 365 + (year - 1) / 4 - (year - 1) / 100 + (year - 1) / 400

/-- The days of a year before the first of a month. -/
def daysBeforeMonth (year month : ℕ) : ℕ :=
  ((List.range (month - 1)).map fun i => daysInMonth year (i + 1)).sum

/-- `toordinal()`. -/
def toordinal (f : DateTimeFields) : ℕ :=
  daysBeforeYear f.year + daysBeforeMonth f.year f.month + f.day

/-- The moment, in microseconds, counted from the start of the year 1 in UTC. -/
def instant (f : DateTimeFields) : Timestamp :=
  ((((f.toordinal - 1) * 24 + f.hour) * 60 + f.minute) * 60 + f.second : ℤ) * 1000000 +
    f.microsecond - f.utcoffset

example : instant { year := 1970, month := 1, day := 1 } = unixEpoch := by decide

end DateTimeFields

/-- An aware `datetime`. -/
structure DateTime extends DateTimeFields where
  valid : toDateTimeFields.Valid
  deriving DecidableEq

/-- `datetime.min`, in UTC. -/
instance : Inhabited DateTime where
  default := ⟨{ year := 1, month := 1, day := 1 }, by decide⟩

/-! ### ISO format -/

/-- `.ffffff`, unless it is zero. -/
def formatFraction (microsecond : ℕ) : Str :=
  if microsecond = 0 then [] else '.' :: padded 6 microsecond

def readFraction : Str → Option (ℕ × Str)
  | '.' :: text => readDigits 6 0 text
  | text => some (0, text)

/-- `+hh:mm[:ss[.ffffff]]`. -/
def formatOffset (utcoffset : ℤ) : Str :=
  let abs := utcoffset.natAbs
  (if utcoffset < 0 then '-' else '+') :: (padded 2 (abs / 3600000000) ++
    ':' :: (padded 2 (abs / 60000000 % 60) ++
      if abs % 60000000 = 0 then []
      else ':' :: (padded 2 (abs / 1000000 % 60) ++ formatFraction (abs % 1000000))))

def readSeconds : Str → Option (ℕ × Str)
  | ':' :: text => readDigits 2 0 text
  | text => some (0, text)

def readOffset : Str → Option ℤ
  | [] => none
  | sign :: text =>
    (readDigits 2 0 text).bind fun hours =>
    (readChar ':' hours.2).bind fun text =>
    (readDigits 2 0 text).bind fun minutes =>
    (readSeconds minutes.2).bind fun seconds =>
    (readFraction seconds.2).bind fun microseconds =>
    let abs := ((hours.1 * 60 + minutes.1) * 60 + seconds.1) * 1000000 + microseconds.1
    if microseconds.2 ≠ [] then none
    else if sign = '-' then some (-abs)
    else if sign = '+' then some abs
    else none

/-- `value.isoformat()`. -/
def DateTimeFields.isoformat (f : DateTimeFields) : Str :=
  padded 4 f.year ++ '-' :: (padded 2 f.month ++ '-' :: (padded 2 f.day ++
    'T' :: (padded 2 f.hour ++ ':' :: (padded 2 f.minute ++ ':' :: (padded 2 f.second ++
      (formatFraction f.microsecond ++ formatOffset f.utcoffset))))))

def readFields (text : Str) : Option DateTimeFields :=
  (readDigits 4 0 text).bind fun year =>
  (readChar '-' year.2).bind fun text =>
  (readDigits 2 0 text).bind fun month =>
  (readChar '-' month.2).bind fun text =>
  (readDigits 2 0 text).bind fun day =>
  (readChar 'T' day.2).bind fun text =>
  (readDigits 2 0 text).bind fun hour =>
  (readChar ':' hour.2).bind fun text =>
  (readDigits 2 0 text).bind fun minute =>
  (readChar ':' minute.2).bind fun text =>
  (readDigits 2 0 text).bind fun second =>
  (readFraction second.2).bind fun microsecond =>
  (readOffset microsecond.2).map fun utcoffset =>
    { year := year.1, month := month.1, day := day.1, hour := hour.1, minute := minute.1
      second := second.1, microsecond := microsecond.1, utcoffset := utcoffset }

/-- `datetime.fromisoformat(text)`, for the texts of `isoformat`.  CPython takes an offset of less
than a second for that of UTC, whereas here it is read like any other. -/
def fromisoformat (text : Str) : Except PyError DateTime :=
  match readFields text with
  | none => .error ⟨.value, "Invalid isoformat string: '".toList ++ text ++ "'".toList⟩
  | some f =>
    if h : f.Valid then .ok ⟨f, h⟩
    else .error ⟨.value, "Invalid isoformat string: '".toList ++ text ++ "'".toList⟩

theorem readFraction_formatFraction {microsecond : ℕ} (h : microsecond < 1000000) {rest : Str}
    (hrest : rest.head? ≠ some '.') :
    readFraction (formatFraction microsecond ++ rest) = some (microsecond, rest) := by
  unfold formatFraction
  split_ifs with hzero
  · subst hzero
    rw [List.nil_append]
    unfold readFraction
    split
    · exact absurd rfl hrest
    · rfl
  · rw [List.cons_append, readFraction, readDigits_padded (by omega), Nat.zero_mul, Nat.zero_add]

theorem readOffset_formatOffset {utcoffset : ℤ} (h : utcoffset.natAbs < 86400000000) :
    readOffset (formatOffset utcoffset) = some utcoffset := by
  unfold formatOffset readOffset
  dsimp only
  rw [readDigits_padded (by omega)]
  simp only [Option.bind_some, readChar_cons]
  rw [readDigits_padded (by omega)]
  simp only [Option.bind_some]
  have hsign : ∀ abs : ℤ, abs = utcoffset.natAbs →
      (if (if utcoffset < 0 then '-' else '+') = '-' then some (-abs)
        else if (if utcoffset < 0 then '-' else '+') = '+' then some abs else none) =
      some utcoffset := by
    rintro abs rfl
    by_cases hneg : utcoffset < 0
    · simp only [if_pos hneg, if_true]
      congr 1
      omega
    · simp only [if_neg hneg]
      rw [if_neg (by decide), if_true]
      congr 1
      omega
  by_cases hzero : utcoffset.natAbs % 60000000 = 0
  · rw [if_pos hzero]
    simp only [readSeconds, readFraction, Option.bind_some, ne_eq, not_true_eq_false, if_false]
    apply hsign
    exact congrArg Nat.cast (by omega)
  · rw [if_neg hzero]
    simp only [readSeconds]
    rw [readDigits_padded (by omega)]
    simp only [Option.bind_some]
    have hfraction : readFraction (formatFraction (utcoffset.natAbs % 1000000) ++ []) =
        some (utcoffset.natAbs % 1000000, []) := readFraction_formatFraction (by omega) (by simp)
    rw [List.append_nil] at hfraction
    rw [hfraction]
    simp only [Option.bind_some, ne_eq, not_true_eq_false, if_false]
    apply hsign
    exact congrArg Nat.cast (by omega)

/-- **`fromisoformat` reads what `isoformat` wrote.** -/
theorem fromisoformat_isoformat (value : DateTime) :
    fromisoformat value.isoformat = .ok value := by
  have hvalid := value.valid
  have hhead : (formatOffset value.utcoffset).head? ≠ some '.' := by
    unfold formatOffset
    dsimp only
    rw [List.head?_cons]
    split_ifs <;> decide
  have hyear := hvalid.year
  have hmonth := hvalid.month
  have hday : value.day < 10 ^ 2 := by
    have hle := hvalid.day.2
    have hmax : DateTimeFields.daysInMonth value.year value.month ≤ 31 := by
      unfold DateTimeFields.daysInMonth
      split_ifs <;> omega
    omega
  have hhour := hvalid.hour
  have hminute := hvalid.minute
  have hsecond := hvalid.second
  have hread : readFields value.isoformat = some value.toDateTimeFields := by
    unfold readFields DateTimeFields.isoformat
    rw [readDigits_padded (by omega)]
    simp only [Option.bind_some, readChar_cons]
    rw [readDigits_padded (by omega)]
    simp only [Option.bind_some, readChar_cons]
    rw [readDigits_padded hday]
    simp only [Option.bind_some, readChar_cons]
    rw [readDigits_padded (by omega)]
    simp only [Option.bind_some, readChar_cons]
    rw [readDigits_padded (by omega)]
    simp only [Option.bind_some, readChar_cons]
    rw [readDigits_padded (by omega)]
    simp only [Option.bind_some]
    rw [readFraction_formatFraction hvalid.microsecond hhead]
    simp only [Option.bind_some]
    rw [readOffset_formatOffset hvalid.utcoffset]
    simp
  unfold fromisoformat
  rw [hread]
  exact dif_pos hvalid

end MarketplacePipeline
