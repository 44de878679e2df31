import MarketplacePipeline.Python.Json
import Mathlib.Data.List.Basic

/-!
# Writing JSON

`json.dumps(value, ensure_ascii=False)`, with the separators and the indentation that a `Layout`
says.  The text of a `float` is the one of `float.__repr__`, but for the values that are no
numbers.  Of the exceptions, those of a structure that is nested too deeply and of an `int` with
more than 4300 digits are left out.
-/

namespace MarketplacePipeline

namespace JsonDumps

/-- The whitespace of JSON. -/
def isSpace (c : Char) : Bool := c = ' ' || c = '\t' || c = '\n' || c = '\r'

/-- A text of whitespace. -/
def Space (text : Str) : Prop := ∀ c ∈ text, isSpace c = true

@[simp] theorem space_nil : Space [] := fun _ h => by cases h

theorem space_replicate (n : ℕ) : Space (List.replicate n ' ') := fun c hc => by
  rw [List.eq_of_mem_replicate hc]
  rfl

theorem Space.append {a b : Str} (ha : Space a) (hb : Space b) : Space (a ++ b) := fun c hc =>
  (List.mem_append.mp hc).elim (ha c) (hb c)

/-- Where whitespace is written. -/
structure Layout where
  /-- Before the first item of a structure, and after a comma: `depth` structures are open. -/
  beforeItem : (first : Bool) → (depth : ℕ) → Str
  /-- Before the bracket that ends a structure. -/
  beforeEnd : (depth : ℕ) → Str
  afterColon : Str
  space_beforeItem : ∀ first depth, Space (beforeItem first depth)
  space_beforeEnd : ∀ depth, Space (beforeEnd depth)
  space_afterColon : Space afterColon

namespace Layout

/-- `separators=(', ', ': ')`, the default. -/
def oneLine : Layout where
  beforeItem first _ := if first then [] else [' ']
  beforeEnd _ := []
  afterColon := [' ']
  space_beforeItem first _ := by
    cases first
    · exact space_replicate 1
    · exact space_nil
  space_beforeEnd _ := space_nil
  space_afterColon := space_replicate 1

/-- `separators=(',', ':')`. -/
def compact : Layout where
  beforeItem _ _ := []
  beforeEnd _ := []
  afterColon := []
  space_beforeItem _ _ := space_nil
  space_beforeEnd _ := space_nil
  space_afterColon := space_nil

/-- A new line, and the indentation of what is at `depth`. -/
def newline (indent depth : ℕ) : Str := '\n' :: List.replicate (indent * depth) ' '

theorem space_newline (indent depth : ℕ) : Space (newline indent depth) := fun c hc => by
  rcases List.mem_cons.mp hc with rfl | hc
  · rfl
  · exact space_replicate _ c hc

/-- `indent=indent`. -/
def indented (indent : ℕ) : Layout where
  beforeItem _ depth := newline indent depth
  beforeEnd depth := newline indent depth
  afterColon := [' ']
  space_beforeItem _ depth := space_newline indent depth
  space_beforeEnd depth := space_newline indent depth
  space_afterColon := space_replicate 1

end Layout

/-! ### Texts -/

/-- A hexadecimal digit. -/
def hexDigit (n : ℕ) : Char := "0123456789abcdef".toList.getD n '0'

/-- `ESCAPE_DCT`, and `'\\u{0:04x}'` for the other control characters. -/
def escapeChar (c : Char) : Str :=
  if c = '"' then "\\\"".toList
  else if c = '\\' then "\\\\".toList
  else if c = '\n' then "\\n".toList
  else if c = '\r' then "\\r".toList
  else if c = '\t' then "\\t".toList
  else if c = '\x0c' then "\\f".toList
  else if c = '\x08' then "\\b".toList
  else if c.toNat < 32 then "\\u00".toList ++ [hexDigit (c.toNat / 16), hexDigit (c.toNat % 16)]
  else [c]

/-- `py_encode_basestring(s)`. -/
def encodeString (s : Str) : Str := '"' :: (s.flatMap escapeChar ++ ['"'])

/-- `int.__repr__(n)`. -/
def intText (n : ℤ) : Str :=
  if n < 0 then '-' :: Nat.toDigits 10 n.natAbs else Nat.toDigits 10 n.natAbs

/-- `floatstr(x)`, from the text of `float.__repr__(x)`. -/
def floatText (repr : Str) : Str :=
  if repr = "nan".toList then "NaN".toList
  else if repr = "inf".toList then "Infinity".toList
  else if repr = "-inf".toList then "-Infinity".toList
  else repr

/-! ### Values -/

variable (layout : Layout)

mutual

/-- The text of a value inside `depth` structures. -/
def dumpValue (depth : ℕ) : Json → Str
  | .null => "null".toList
  | .bool true => "true".toList
  | .bool false => "false".toList
  | .int n => intText n
  | .float repr => floatText repr
  | .str s => encodeString s
  | .list [] => "[]".toList
  | .list (item :: items) =>
    '[' :: (layout.beforeItem true (depth + 1) ++ dumpValue (depth + 1) item ++
      dumpItems depth items)
  | .dict [] => ['\x7b', '\x7d']
  | .dict ((key, value) :: fields) =>
    '\x7b' :: (layout.beforeItem true (depth + 1) ++ encodeString key ++ ':' :: layout.afterColon ++
      dumpValue (depth + 1) value ++ dumpFields depth fields)

/-- The rest of a list, after an item. -/
def dumpItems (depth : ℕ) : List Json → Str
  | [] => layout.beforeEnd depth ++ [']']
  | item :: items =>
    ',' :: (layout.beforeItem false (depth + 1) ++ dumpValue (depth + 1) item ++
      dumpItems depth items)

/-- The rest of a dictionary, after a value. -/
def dumpFields (depth : ℕ) : List (Str × Json) → Str
  | [] => layout.beforeEnd depth ++ ['\x7d']
  | (key, value) :: fields =>
    ',' :: (layout.beforeItem false (depth + 1) ++ encodeString key ++ ':' :: layout.afterColon ++
      dumpValue (depth + 1) value ++ dumpFields depth fields)

end

/-- `json.dumps(value)`. -/
def dumps (value : Json) : Str := dumpValue layout 0 value

end JsonDumps

end MarketplacePipeline
