import MarketplacePipeline.Python.Float

/-!
# `float.__repr__`

The text of a float is the shortest decimal that is rounded to it, the nearest one if there are two
of them, and has an exponent if the point is far away from the digits.  Seventeen digits are always
enough, so that `float(repr(x))` is `x`.
-/

namespace MarketplacePipeline

namespace PyFloat

/-- The magnitude of a number. -/
def magnitude? : PyFloat → Option ℚ
  | .finite x => some x.magnitude
  | _ => none

/-- The magnitude that another one is rounded to. -/
def nearest (q : ℚ) : Option ℚ := (ofMagnitude false q).magnitude?

/-- A magnitude that some float has. -/
def IsMagnitude (q : ℚ) : Prop := ∃ x : FiniteFloat, x.magnitude = q

end PyFloat

/-- The number `digits * 10 ^ exponent`. -/
structure Decimal where
  digits : ℕ
  exponent : ℤ
  deriving DecidableEq

namespace Decimal

def value (d : Decimal) : ℚ := d.digits * 10 ^ d.exponent

/-- How many digits stand before the point of a positive number; it is not positive if there are
zeros behind the point. -/
def pointOf (q : ℚ) : ℤ := Int.log 10 q + 1

/-- The decimals with `n` digits on both sides of a number, the nearer one first. -/
def neighbours (n : ℕ) (q : ℚ) : List Decimal :=
  let exponent := pointOf q - n
  let scaled := q / 10 ^ exponent
  let near := roundHalfEven scaled
  let other := if near ≤ scaled then near + 1 else near - 1
  [⟨near, exponent⟩, ⟨other, exponent⟩]

/-- The shortest decimal that is rounded to `q`. -/
def shortest (q : ℚ) : Option Decimal :=
  ((List.range 17).flatMap fun i => neighbours (i + 1) q).find? fun d =>
    PyFloat.nearest d.value = some q

/-- The exponent of a text, with a sign and two digits at least. -/
def exponentText (exponent : ℤ) : Str :=
  'e' :: (if exponent < 0 then '-' else '+') ::
    if exponent.natAbs < 10 then padded 2 exponent.natAbs else Nat.toDigits 10 exponent.natAbs

/-- The digits, without the zeros at the end. -/
def significant (d : Decimal) : Str := (Nat.toDigits 10 d.digits).rdropWhile (· = '0')

/-- How many digits stand before the point. -/
def point (d : Decimal) : ℤ := (Nat.toDigits 10 d.digits).length + d.exponent

/-- `format_float_short(x, 'r', ...)`, from the decimal that is written. -/
def text (d : Decimal) : Str :=
  if d.point ≤ -4 ∨ 16 < d.point then
    d.significant.take 1 ++
      (if d.significant.length ≤ 1 then [] else '.' :: d.significant.drop 1) ++
      exponentText (d.point - 1)
  else if d.point ≤ 0 then
    "0.".toList ++ List.replicate (-d.point).toNat '0' ++ d.significant
  else
    let point := d.point.toNat
    let digits := d.significant ++ List.replicate (point - d.significant.length) '0'
    -- a digit always follows the point
    digits.take point ++ '.' :: if digits.length ≤ point then ['0'] else digits.drop point

end Decimal

namespace PyFloat

/-- The `repr` of a float that is not negative. -/
def reprMagnitude (q : ℚ) : Str :=
  if q = 0 then "0.0".toList
  else
    match Decimal.shortest q with
    | some d => d.text
    | none => []

/-- `float.__repr__(x)`. -/
def repr : PyFloat → Str
  | .nan => "nan".toList
  | .inf negative => if negative then "-inf".toList else "inf".toList
  | .finite x => (if x.negative then ['-'] else []) ++ reprMagnitude x.magnitude

end PyFloat

end MarketplacePipeline
