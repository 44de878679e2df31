import MarketplacePipeline.Python.Float
import MarketplacePipeline.Python.Json

/-!
# Numbers from JSON values

`int(value)`, `float(value)` and the true division `a / b`, with the exceptions that they raise.  A
text is read with the decimal digits of all scripts, and with single underscores between them.
-/

namespace MarketplacePipeline

namespace Number

/-! ### Numerals -/

/-- The whitespace that `int` and `float` skip. -/
def isSpace (c : Char) : Bool := Str.isSpace c && !(28 ≤ c.toNat && c.toNat ≤ 31)

def strip (text : Str) : Str := (text.dropWhile isSpace).rdropWhile isSpace

/-- The value of a decimal digit. -/
def decimalValue (c : Char) : ℕ :=
  match Str.decimalZeros.find? fun first => first ≤ c.toNat && c.toNat < first + 10 with
  | some first => c.toNat - first
  | none => 0

/-- The number that some decimal digits write. -/
def ofDigits (digits : Str) : ℕ := digits.foldl (fun n c => 10 * n + decimalValue c) 0

/-- Takes the underscores out, each of which stands between two digits. -/
def dropUnderscores : (afterDigit : Bool) → Str → Option Str
  | _, [] => some []
  | afterDigit, c :: text =>
    if c = '_' then
      if afterDigit && text.head?.any Str.isDecimal then dropUnderscores false text else none
    else (dropUnderscores (Str.isDecimal c) text).map (c :: ·)

/-- Whether there is a minus sign, and what is behind the sign. -/
def splitSign : Str → Bool × Str
  | '-' :: text => (true, text)
  | '+' :: text => (false, text)
  | text => (false, text)

/-- The sign and the digits of an integer. -/
def readInt (text : Str) : Option (Bool × Str) :=
  (dropUnderscores false (strip text)).bind fun text =>
    let (negative, digits) := splitSign text
    if digits.isEmpty || !digits.all Str.isDecimal then none else some (negative, digits)

/-- The exponent behind the digits of a float. -/
def readExponent : Str → Option ℤ
  | [] => some 0
  | e :: text =>
    let (negative, digits) := splitSign text
    if (e ≠ 'e' && e ≠ 'E') || digits.isEmpty || !digits.all Str.isDecimal then none
    else some (if negative then -ofDigits digits else ofDigits digits)

/-- The number that a decimal numeral writes: `negative`, its digits before and after the point, and
the exponent. -/
def ofDecimal (negative : Bool) (whole fraction : Str) (exponent : ℤ) : PyFloat :=
  .ofMagnitude negative (ofDigits (whole ++ fraction) * 10 ^ (exponent - fraction.length))

/-- A float, with its sign. -/
def readUnsignedFloat (negative : Bool) (text : Str) : Option PyFloat :=
  let lower := text.map Char.toLower
  if lower = "nan".toList then some .nan
  else if lower = "inf".toList ∨ lower = "infinity".toList then some (.inf negative)
  else
    let whole := text.takeWhile Str.isDecimal
    let (fraction, rest) :=
      match text.dropWhile Str.isDecimal with
      | '.' :: rest => (rest.takeWhile Str.isDecimal, rest.dropWhile Str.isDecimal)
      | rest => ([], rest)
    if (whole ++ fraction).isEmpty then none
    else (readExponent rest).map (ofDecimal negative whole fraction)

def readFloat (text : Str) : Option PyFloat :=
  (dropUnderscores false (strip text)).bind fun text =>
    readUnsignedFloat (splitSign text).1 (splitSign text).2

/-- The float of a `repr`. -/
def floatOfRepr (text : Str) : PyFloat := (readFloat text).getD .nan

end Number

/-! ### `int` and `float` -/

/-- `int(x)`. -/
def PyFloat.toInt : PyFloat → Except PyError ℤ
  | .nan => .error ⟨.value, "cannot convert float NaN to integer".toList⟩
  | .inf _ => .error ⟨.exception, "cannot convert float infinity to integer".toList⟩
  | .finite x => .ok (if x.negative then -⌊x.magnitude⌋ else ⌊x.magnitude⌋)

/-- The exceptions of `float(value)`. -/
inductive FloatError
  | typeError (text : Str)
  | valueError (text : Str)
  | overflowError (text : Str)

/-- `a / b`, for two integers. -/
def trueDiv (a b : ℤ) : Except PyError PyFloat :=
  match (PyFloat.ofRat (a / b)).finite? with
  | none => .error ⟨.exception, "integer division result too large for a float".toList⟩
  | some x => .ok x

namespace JsonText

variable (text : JsonText)

/-- `int(value)`. -/
def toInt : Json → Except PyError ℤ
  | .bool b => .ok (if b then 1 else 0)
  | .int n => .ok n
  | .float repr => (Number.floatOfRepr repr).toInt
  | .str s =>
    match Number.readInt s with
    | none =>
      .error ⟨.value, "invalid literal for int() with base 10: ".toList ++ text.repr (.str s)⟩
    | some (negative, digits) =>
      if 4300 < digits.length then
        .error ⟨.value, "Exceeds the limit (4300 digits) for integer string conversion: ".toList ++
          "value has ".toList ++ (toString digits.length).toList ++
          " digits; use sys.set_int_max_str_digits() to increase the limit".toList⟩
      else .ok (if negative then -Number.ofDigits digits else Number.ofDigits digits)
  | value =>
    .error ⟨.exception,
      "int() argument must be a string, a bytes-like object or a real number, not '".toList ++
        value.typeName ++ "'".toList⟩

/-- `float(value)`. -/
def toFloat : Json → Except FloatError PyFloat
  | .bool b => .ok (.ofRat (if b then 1 else 0))
  | .int n =>
    match (PyFloat.ofRat n).finite? with
    | none => .error (.overflowError "int too large to convert to float".toList)
    | some x => .ok x
  | .float repr => .ok (Number.floatOfRepr repr)
  | .str s =>
    match Number.readFloat s with
    | none =>
      .error (.valueError ("could not convert string to float: ".toList ++ text.repr (.str s)))
    | some x => .ok x
  | value =>
    .error (.typeError ("float() argument must be a string or a real number, not '".toList ++
      value.typeName ++ "'".toList))

end JsonText

end MarketplacePipeline
