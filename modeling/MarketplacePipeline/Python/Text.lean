import MarketplacePipeline.Algorithm.FirstOccurrence
import Mathlib.Data.List.DropRight

/-!
# Python text and slices

A `str` is a sequence of code points, here a list of characters (`Str`).  The operations are the
ones the pipeline uses: `strip` and `rstrip` with Python's notion of whitespace, `find` with a
start position (`none` where Python returns `-1`), the slice `text[a:b]` for `0 ≤ a`, `0 ≤ b`,
`replace`, `split` with a bound, and the class `\d` of regular expressions.  `sliceTo` is
`xs[:stop]` for any integer, which counts from the end when it is negative.
-/

namespace MarketplacePipeline

/-- `xs[:stop]`. -/
def sliceTo {α : Type*} (xs : List α) (stop : Int) : List α :=
  if 0 ≤ stop then xs.take stop.toNat else xs.take (xs.length - stop.natAbs)

theorem sliceTo_of_nonneg {α : Type*} (xs : List α) {stop : Int} (h : 0 ≤ stop) :
    sliceTo xs stop = xs.take stop.toNat := if_pos h

@[simp] theorem sliceTo_nil {α : Type*} (stop : Int) : sliceTo ([] : List α) stop = [] := by
  simp [sliceTo]

/-- A Python `str`. -/
abbrev Str := List Char

namespace Str

open FirstOccurrence

/-- The characters `str.strip()` removes: those for which `str.isspace()` holds. -/
def isSpace (c : Char) : Bool :=
  let n := c.toNat
  (9 ≤ n && n ≤ 13) || (28 ≤ n && n ≤ 32) || n == 0x85 || n == 0xa0 || n == 0x1680 ||
    (0x2000 ≤ n && n ≤ 0x200a) || n == 0x2028 || n == 0x2029 || n == 0x202f || n == 0x205f ||
    n == 0x3000

/-- `text.rstrip()`. -/
def rstrip (text : Str) : Str := text.rdropWhile isSpace

/-- `text.strip()`. -/
def strip (text : Str) : Str := rstrip (text.dropWhile isSpace)

/-- `text.find(sub, start)`. -/
def find (sub text : Str) (start : Nat) : Option Nat :=
  (findSub sub (text.drop start)).map (start + ·)

/-- `text[a:b]`. -/
def slice (text : Str) (a b : Nat) : Str := (text.take b).drop a

/-- The zeros of the decimal digits of Unicode 14; the nine other digits come right after each. -/
def decimalZeros : List Nat :=
  [0x30, 0x660, 0x6f0, 0x7c0, 0x966, 0x9e6, 0xa66, 0xae6, 0xb66, 0xbe6, 0xc66, 0xce6, 0xd66, 0xde6,
    0xe50, 0xed0, 0xf20, 0x1040, 0x1090, 0x17e0, 0x1810, 0x1946, 0x19d0, 0x1a80, 0x1a90, 0x1b50,
    0x1bb0, 0x1c40, 0x1c50, 0xa620, 0xa8d0, 0xa900, 0xa9d0, 0xa9f0, 0xaa50, 0xabf0, 0xff10, 0x104a0,
    0x10d30, 0x11066, 0x110f0, 0x11136, 0x111d0, 0x112f0, 0x11450, 0x114d0, 0x11650, 0x116c0,
    0x11730, 0x118e0, 0x11950, 0x11c50, 0x11d50, 0x11da0, 0x16a60, 0x16ac0, 0x16b50, 0x1d7ce,
    0x1d7d8, 0x1d7e2, 0x1d7ec, 0x1d7f6, 0x1e140, 0x1e2f0, 0x1e950, 0x1fbf0]

/-- The characters that `\d` matches. -/
def isDecimal (c : Char) : Bool :=
  decimalZeros.any fun first => first ≤ c.toNat && c.toNat < first + 10

/-- `text.replace(old, new)` after the first `skip` characters, which belong to an occurrence. -/
def replaceFrom (old new : Str) : Nat → Str → Str
  | _, [] => []
  | skip + 1, _ :: text => replaceFrom old new skip text
  | 0, c :: text =>
    if old <+: c :: text then new ++ replaceFrom old new (old.length - 1) text
    else c :: replaceFrom old new 0 text

/-- `text.replace(old, new)`, for an `old` that is not empty. -/
def replace (old new text : Str) : Str := replaceFrom old new 0 text

/-- `text.split(sep, maxsplit=...)`, for a separator of one character. -/
def split (sep : Char) : (maxsplit : Nat) → Str → List Str
  | 0, text => [text]
  | maxsplit + 1, text =>
    if sep ∈ text then
      text.takeWhile (· ≠ sep) :: split sep maxsplit ((text.dropWhile (· ≠ sep)).drop 1)
    else [text]

theorem rstrip_prefix (text : Str) : rstrip text <+: text := List.rdropWhile_prefix isSpace text

/-- `rstrip` leaves a text alone up to its last character that is not whitespace. -/
theorem rstrip_append {a b : Str} (ha : a ≠ []) (hlast : ∀ h, isSpace (a.getLast h) = false) :
    rstrip (a ++ b) = a ++ rstrip b := by
  induction b using List.reverseRecOn with
  | nil =>
    rw [List.append_nil, rstrip, rstrip, List.rdropWhile_nil, List.append_nil,
      List.rdropWhile_eq_self_iff]
    intro _
    simp [hlast ha]
  | append_singleton b c ih =>
    by_cases hc : isSpace c = true
    · rw [← List.append_assoc, rstrip, rstrip, List.rdropWhile_concat_pos _ _ _ hc,
        List.rdropWhile_concat_pos _ _ _ hc]
      exact ih
    · rw [← List.append_assoc, rstrip, rstrip, List.rdropWhile_concat_neg _ _ _ hc,
        List.rdropWhile_concat_neg _ _ _ hc, List.append_assoc]

theorem replace_eq_self {old text : Str} (new : Str) (h : ¬ old <:+: text) :
    replace old new text = text := by
  induction text with
  | nil => rfl
  | cons c text ih =>
    have hhead : ¬ old <+: c :: text := fun hbegins => h hbegins.isInfix
    have htail : ¬ old <:+: text := fun hinside =>
      h (hinside.trans (List.suffix_cons c text).isInfix)
    rw [replace, replaceFrom, if_neg hhead]
    exact congrArg (c :: ·) (ih htail)

/-- The first separator separates. -/
theorem split_one {sep : Char} {a : Str} (ha : sep ∉ a) (b : Str) :
    split sep 1 (a ++ sep :: b) = [a, b] := by
  rw [split, if_pos (by simp), takeWhile_ne_append_cons ha, dropWhile_ne_append_cons ha]
  rfl

theorem find_zero (sub text : Str) : find sub text 0 = findSub sub text := by
  simp [find]

/-! ### ASCII digits -/

theorem toNat_of_isDigit {c : Char} (h : c.isDigit = true) :
    0x30 ≤ c.toNat ∧ c.toNat < 0x30 + 10 := by
  simp only [Char.isDigit, Bool.and_eq_true, decide_eq_true_eq, UInt32.le_iff_toNat_le] at h
  have hlow : 0x30 ≤ c.toNat := h.1
  have hhigh : c.toNat ≤ 0x39 := h.2
  omega

theorem isDecimal_of_isDigit {c : Char} (h : c.isDigit = true) : isDecimal c = true := by
  have hrange := toNat_of_isDigit h
  refine List.any_eq_true.mpr ⟨0x30, List.mem_cons_self, ?_⟩
  simpa using hrange

theorem isSpace_of_isDigit {c : Char} (h : c.isDigit = true) : isSpace c = false := by
  have hrange := toNat_of_isDigit h
  simp only [isSpace, Bool.or_eq_false_iff, Bool.and_eq_false_iff, decide_eq_false_iff_not,
    beq_eq_false_iff_ne]
  omega

end Str

end MarketplacePipeline
