import MarketplacePipeline.Python.JsonLoads

/-!
# The grammar of JSON

`Renders float value text` says that `text` is a JSON text of `value`, with any whitespace and any
escapes; `float` gives the `repr` of the number that a numeral writes.  Of a key that stands twice
in an object, the later value is the one of the dictionary.
-/

namespace MarketplacePipeline.JsonGrammar

open JsonDumps JsonLoads

/-- How a character can be written. -/
inductive CharText : Char → Str → Prop
  | plain {c : Char} (hquote : c ≠ '"') (hescape : c ≠ '\\') (hcontrol : 32 ≤ c.toNat) :
      CharText c [c]
  | short {e c : Char} (h : shortEscape e = some c) : CharText c ['\\', e]
  | unit {a b c d : Char} {n : ℕ} (h : scanHex a b c d = some n) (hn : n < 0xd800 ∨ 0xdfff < n) :
      CharText (Char.ofNat n) ['\\', 'u', a, b, c, d]
  | pair {a b c d a' b' c' d' : Char} {high low : ℕ} (h : scanHex a b c d = some high)
      (h' : scanHex a' b' c' d' = some low) (hhigh : 0xd800 ≤ high ∧ high ≤ 0xdbff)
      (hlow : 0xdc00 ≤ low ∧ low ≤ 0xdfff) :
      CharText (Char.ofNat (0x10000 + 1024 * (high - 0xd800) + (low - 0xdc00)))
        ['\\', 'u', a, b, c, d, '\\', 'u', a', b', c', d']

/-- How a text can be written between its quotes. -/
inductive StringText : Str → Str → Prop
  | nil : StringText [] []
  | cons {c : Char} {s t ts : Str} (h : CharText c t) (hs : StringText s ts) :
      StringText (c :: s) (t ++ ts)

/-- A text of digits. -/
def Digits (text : Str) : Prop := text ≠ [] ∧ ∀ c ∈ text, isDigit c = true

/-- The digits of an integer, without leading zeros. -/
def Whole (text : Str) : Prop := text = ['0'] ∨ Digits text ∧ text.head? ≠ some '0'

/-- The end of a numeral that has a point. -/
def Fraction (text : Str) : Prop := text = [] ∨ ∃ digits, Digits digits ∧ text = '.' :: digits

/-- The end of a numeral that has an exponent. -/
def Exponent (text : Str) : Prop :=
  text = [] ∨ ∃ e sign digits, (e = 'e' ∨ e = 'E') ∧ (sign = [] ∨ sign = ['+'] ∨ sign = ['-']) ∧
    Digits digits ∧ text = e :: (sign ++ digits)

/-- A minus sign, or none. -/
def signText (negative : Bool) : Str := if negative then ['-'] else []

variable (float : Str → Str)

/-- How a number can be written. -/
inductive NumberText : Json → Str → Prop
  | int (negative : Bool) {whole : Str} (h : Whole whole) (hlength : whole.length ≤ 4300) :
      NumberText (.int (if negative then -(Nat.ofDigitChars 10 whole 0 : ℤ)
        else Nat.ofDigitChars 10 whole 0)) (signText negative ++ whole)
  | float (negative : Bool) {whole fraction exponent : Str} (h : Whole whole)
      (hfraction : Fraction fraction) (hexponent : Exponent exponent)
      (hany : ¬ (fraction = [] ∧ exponent = [])) :
      NumberText (.float (float (signText negative ++ whole ++ fraction ++ exponent)))
        (signText negative ++ whole ++ fraction ++ exponent)

mutual

/-- How a value can be written. -/
inductive Renders : Json → Str → Prop
  | constant {word : Str} {value : Json} (h : (word, value) ∈ constants) : Renders value word
  | number {value : Json} {t : Str} (h : NumberText float value t) : Renders value t
  | string {s t : Str} (h : StringText s t) : Renders (.str s) ('"' :: (t ++ ['"']))
  | emptyList {w : Str} (hw : Space w) : Renders (.list []) ('[' :: (w ++ [']']))
  | list {w t : Str} {items : List Json} (hw : Space w) (h : RendersItems items t) :
      Renders (.list items) ('[' :: (w ++ t))
  | emptyDict {w : Str} (hw : Space w) : Renders (.dict []) ('\x7b' :: (w ++ ['\x7d']))
  | dict {w t : Str} {pairs : List (Str × Json)} (hw : Space w) (h : RendersFields pairs t) :
      Renders (.dict (dictOf pairs)) ('\x7b' :: (w ++ t))

/-- How a list can be written from its first item on. -/
inductive RendersItems : List Json → Str → Prop
  | last {item : Json} {t w : Str} (h : Renders item t) (hw : Space w) :
      RendersItems [item] (t ++ (w ++ [']']))
  | cons {item : Json} {items : List Json} {t w w' ts : Str} (h : Renders item t) (hw : Space w)
      (hw' : Space w') (hitems : RendersItems items ts) :
      RendersItems (item :: items) (t ++ (w ++ ',' :: (w' ++ ts)))

/-- How an object can be written from its first key on. -/
inductive RendersFields : List (Str × Json) → Str → Prop
  | last {key k w₁ w₂ t w₃ : Str} {value : Json} (hkey : StringText key k) (hw₁ : Space w₁)
      (hw₂ : Space w₂) (h : Renders value t) (hw₃ : Space w₃) :
      RendersFields [(key, value)]
        ('"' :: (k ++ '"' :: (w₁ ++ ':' :: (w₂ ++ (t ++ (w₃ ++ ['\x7d']))))))
  | cons {key k w₁ w₂ t w₃ w₄ ts : Str} {value : Json} {pairs : List (Str × Json)}
      (hkey : StringText key k) (hw₁ : Space w₁) (hw₂ : Space w₂) (h : Renders value t)
      (hw₃ : Space w₃) (hw₄ : Space w₄) (hpairs : RendersFields pairs ts) :
      RendersFields ((key, value) :: pairs)
        ('"' :: (k ++ '"' :: (w₁ ++ ':' :: (w₂ ++ (t ++ (w₃ ++ ',' :: (w₄ ++ ts)))))))

end

/-- A JSON text of a value, with the whitespace around it. -/
def TextOf (value : Json) (text : Str) : Prop :=
  ∃ w t w', text = w ++ (t ++ w') ∧ Space w ∧ Renders float value t ∧ Space w'

/-- A value whose text can be read again: the keys of every dictionary differ, no integer is too
long, and every float has the `repr` of a float. -/
inductive WellFormed : Json → Prop
  | null : WellFormed .null
  | bool (b : Bool) : WellFormed (.bool b)
  | int {n : ℤ} (h : (Nat.toDigits 10 n.natAbs).length ≤ 4300) : WellFormed (.int n)
  | notNumber {repr : Str}
      (h : repr ∈ ["nan".toList, "inf".toList, "-inf".toList]) : WellFormed (.float repr)
  | float {repr : Str} (h : NumberText float (.float repr) repr) : WellFormed (.float repr)
  | str (s : Str) : WellFormed (.str s)
  | list {items : List Json} (h : ∀ item ∈ items, WellFormed item) : WellFormed (.list items)
  | dict {fields : List (Str × Json)} (hkeys : (fields.map Prod.fst).Nodup)
      (h : ∀ field ∈ fields, WellFormed field.2) : WellFormed (.dict fields)

end MarketplacePipeline.JsonGrammar
