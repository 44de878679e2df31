import MarketplacePipeline.Python.JsonDumps

/-!
# Reading JSON

`json.loads(text)`: the scanner of the module `json`, as a recursive descent over the text.  `fuel`
bounds the nesting of the calls; the length of the text is enough (`loads_of_textOf`).  What
`float` makes of a numeral is a parameter, the `repr` of the number; so is the message of a
`JSONDecodeError`.  The escape of a lone surrogate, which is not a character, is left out, and so is
the exception of a structure that is nested too deeply.
-/

namespace MarketplacePipeline

namespace JsonLoads

open JsonDumps

/-- `WHITESPACE.match(text).end()`: what is behind the whitespace. -/
def skipSpace (text : Str) : Str := text.dropWhile isSpace

/-! ### Texts -/

/-- The value of a hexadecimal digit. -/
def hexValue (c : Char) : Option ℕ :=
  if '0' ≤ c && c ≤ '9' then some (c.toNat - 48)
  else if 'a' ≤ c && c ≤ 'f' then some (c.toNat - 87)
  else if 'A' ≤ c && c ≤ 'F' then some (c.toNat - 55)
  else none

/-- `_decode_uXXXX`: the number that four hexadecimal digits write. -/
def scanHex (a b c d : Char) : Option ℕ := do
  let a ← hexValue a
  let b ← hexValue b
  let c ← hexValue c
  let d ← hexValue d
  pure (4096 * a + 256 * b + 16 * c + d)

/-- `BACKSLASH`. -/
def shortEscape (c : Char) : Option Char :=
  match c with
  | '"' => some '"'
  | '\\' => some '\\'
  | '/' => some '/'
  | 'b' => some '\x08'
  | 'f' => some '\x0c'
  | 'n' => some '\n'
  | 'r' => some '\r'
  | 't' => some '\t'
  | _ => none

/-- The character of an escaped code unit: a high surrogate needs the low one behind it. -/
def scanUnit (unit : ℕ) (text : Str) : Option (Char × Str) :=
  if unit < 0xd800 ∨ 0xdfff < unit then some (Char.ofNat unit, text)
  else
    match text with
    | '\\' :: 'u' :: a :: b :: c :: d :: text =>
      (scanHex a b c d).bind fun low =>
        if unit ≤ 0xdbff ∧ 0xdc00 ≤ low ∧ low ≤ 0xdfff then
          some (Char.ofNat (0x10000 + 1024 * (unit - 0xd800) + (low - 0xdc00)), text)
        else none
    | _ => none

/-- A character of a text as it is written, and what is behind it. -/
def scanChar : Str → Option (Char × Str)
  | '\\' :: 'u' :: a :: b :: c :: d :: text => (scanHex a b c d).bind fun unit => scanUnit unit text
  | '\\' :: c :: text => (shortEscape c).map fun c => (c, text)
  | c :: text => if c = '\\' ∨ c = '"' ∨ c.toNat < 32 then none else some (c, text)
  | [] => none

/-- `scanstring`: the text up to its quote, and what is behind the quote. -/
def scanString : (fuel : ℕ) → Str → Option (Str × Str)
  | 0, _ => none
  | fuel + 1, text =>
    if text.head? = some '"' then some ([], text.tail)
    else
      (scanChar text).bind fun (c, text) =>
        (scanString fuel text).map fun (s, text) => (c :: s, text)

/-! ### Numbers -/

def isDigit (c : Char) : Bool := '0' ≤ c && c ≤ '9'

/-- Digits, and what is behind them. -/
def scanDigits (text : Str) : Str × Str := (text.takeWhile isDigit, text.dropWhile isDigit)

/-- `0|[1-9][0-9]*`. -/
def scanWhole : Str → Option (Str × Str)
  | '0' :: text => some (['0'], text)
  | text => if (scanDigits text).1 = [] then none else some (scanDigits text)

/-- `(\.[0-9]+)?`. -/
def scanFraction (text : Str) : Str × Str :=
  if text.head? = some '.' ∧ (scanDigits text.tail).1 ≠ [] then
    ('.' :: (scanDigits text.tail).1, (scanDigits text.tail).2)
  else ([], text)

/-- `[-+]?`. -/
def scanSign : Str → Str × Str
  | '-' :: text => (['-'], text)
  | '+' :: text => (['+'], text)
  | text => ([], text)

/-- `([eE][-+]?[0-9]+)?`. -/
def scanExponent : Str → Str × Str
  | [] => ([], [])
  | e :: text =>
    let (sign, digits) := scanSign text
    if (e = 'e' ∨ e = 'E') ∧ (scanDigits digits).1 ≠ [] then
      (e :: (sign ++ (scanDigits digits).1), (scanDigits digits).2)
    else ([], e :: text)

/-- `_match_number`: an `int` if it has no fraction and no exponent.  An `int` of more than 4300
digits raises. -/
def scanNumber (float : Str → Str) (text : Str) : Option (Json × Str) :=
  let (sign, text) := if text.head? = some '-' then (['-'], text.tail) else ([], text)
  (scanWhole text).bind fun (whole, text) =>
    let (fraction, text) := scanFraction text
    let (exponent, text) := scanExponent text
    if fraction = [] ∧ exponent = [] then
      if 4300 < whole.length then none
      else
        let n : ℤ := Nat.ofDigitChars 10 whole 0
        some (.int (if sign = [] then n else -n), text)
    else some (.float (float (sign ++ whole ++ fraction ++ exponent)), text)

/-! ### Values -/

/-- The words of JSON, with `parse_constant`. -/
def constants : List (Str × Json) :=
  [("null".toList, .null), ("true".toList, .bool true), ("false".toList, .bool false),
    ("NaN".toList, .float "nan".toList), ("Infinity".toList, .float "inf".toList),
    ("-Infinity".toList, .float "-inf".toList)]

def scanConstant (text : Str) : Option (Json × Str) :=
  (constants.find? fun c => c.1.isPrefixOf text).map fun c => (c.2, text.drop c.1.length)

/-- `fields[key] = value`: a key that is there keeps its place. -/
def setItem (fields : List (Str × Json)) (field : Str × Json) : List (Str × Json) :=
  if fields.any fun f => f.1 = field.1 then
    fields.map fun f => if f.1 = field.1 then field else f
  else fields ++ [field]

/-- `dict(pairs)`. -/
def dictOf (pairs : List (Str × Json)) : List (Str × Json) := pairs.foldl setItem []

variable (float : Str → Str)

mutual

/-- `scan_once`. -/
def scanValue : (fuel : ℕ) → Str → Option (Json × Str)
  | 0, _ => none
  | fuel + 1, text =>
    match text with
    | '"' :: text => (scanString text.length text).map fun (s, text) => (.str s, text)
    | '[' :: text =>
      if (skipSpace text).head? = some ']' then some (.list [], (skipSpace text).tail)
      else (scanItems fuel (skipSpace text)).map fun (items, text) => (.list items, text)
    | '\x7b' :: text =>
      if (skipSpace text).head? = some '\x7d' then some (.dict [], (skipSpace text).tail)
      else (scanFields fuel (skipSpace text)).map fun (pairs, text) => (.dict (dictOf pairs), text)
    | text => (scanConstant text).or (scanNumber float text)

/-- `JSONArray`, from its first item on. -/
def scanItems : (fuel : ℕ) → Str → Option (List Json × Str)
  | 0, _ => none
  | fuel + 1, text =>
    (scanValue fuel text).bind fun (item, text) =>
      let text := skipSpace text
      if text.head? = some ']' then some ([item], text.tail)
      else if text.head? = some ',' then
        (scanItems fuel (skipSpace text.tail)).map fun (items, text) => (item :: items, text)
      else none

/-- `JSONObject`, from its first key on. -/
def scanFields : (fuel : ℕ) → Str → Option (List (Str × Json) × Str)
  | 0, _ => none
  | fuel + 1, text =>
    if text.head? ≠ some '"' then none
    else
      (scanString text.tail.length text.tail).bind fun (key, text) =>
        let text := skipSpace text
        if text.head? ≠ some ':' then none
        else
          (scanValue fuel (skipSpace text.tail)).bind fun (value, text) =>
            let text := skipSpace text
            if text.head? = some '\x7d' then some ([(key, value)], text.tail)
            else if text.head? = some ',' then
              (scanFields fuel (skipSpace text.tail)).map fun (pairs, text) =>
                ((key, value) :: pairs, text)
            else none

end

/-- `json.loads(text)`. -/
def loads (message : Str → Str) (text : Str) : Except PyError Json :=
  match scanValue float (text.length + 1) (skipSpace text) with
  | some (value, rest) =>
    if skipSpace rest = [] then .ok value else .error ⟨.value, message text⟩
  | none => .error ⟨.value, message text⟩

/-- The module `json`, with a `repr`. -/
def jsonText (message : Str → Str) (repr : Json → Str) : JsonText where
  loads := loads float message
  repr := repr
  loads_isException text exc h := by
    unfold loads at h
    split at h
    · split_ifs at h
      cases h
      rfl
    · cases h
      rfl

end JsonLoads

end MarketplacePipeline
