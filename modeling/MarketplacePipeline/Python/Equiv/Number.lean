import MarketplacePipeline.Python.JsonDumps
import MarketplacePipeline.Python.Number
import Mathlib.Data.List.DropRight

/-!
# Reading back a numeral

`int(str(n))` is `n`.
-/

namespace MarketplacePipeline.Number

variable {digits : Str} {n : ℕ}

/-- Decimal digits of ASCII, at least one. -/
structure IsNumeral (digits : Str) : Prop where
  ne_nil : digits ≠ []
  isDigit : ∀ c ∈ digits, c.isDigit = true

theorem isNumeral_toDigits (n : ℕ) : IsNumeral (Nat.toDigits 10 n) where
  ne_nil := Nat.toDigits_ne_nil
  isDigit _ hc := Nat.isDigit_of_mem_toDigits (by decide) (by decide) hc

theorem isSpace_of_isDigit {c : Char} (h : c.isDigit = true) : isSpace c = false := by
  rw [isSpace, Str.isSpace_of_isDigit h, Bool.false_and]

theorem strip_eq_self (hhead : ∀ c ∈ digits.head?, isSpace c = false)
    (hlast : ∀ c ∈ digits.getLast?, isSpace c = false) : strip digits = digits := by
  have hdrop : digits.dropWhile isSpace = digits := by
    cases digits with
    | nil => rfl
    | cons c digits =>
      apply List.dropWhile_cons_of_neg
      rw [hhead c rfl]
      exact Bool.false_ne_true
  rw [strip, hdrop, List.rdropWhile_eq_self_iff]
  intro hne
  rw [hlast _ (List.getLast?_eq_some_getLast hne)]
  exact Bool.false_ne_true

theorem dropUnderscores_of_isDigit (h : ∀ c ∈ digits, c.isDigit = true) (afterDigit : Bool) :
    dropUnderscores afterDigit digits = some digits := by
  induction digits generalizing afterDigit with
  | nil => rfl
  | cons c digits ih =>
    have hc : c ≠ '_' := by
      rintro rfl
      exact absurd (h '_' List.mem_cons_self) (by decide)
    rw [dropUnderscores, if_neg hc, ih fun d hd => h d (List.mem_cons_of_mem c hd)]
    rfl

theorem IsNumeral.readInt_eq (h : IsNumeral digits) : readInt digits = some (false, digits) := by
  have hall : digits.all Str.isDecimal = true :=
    List.all_eq_true.mpr fun c hc => Str.isDecimal_of_isDigit (h.isDigit c hc)
  have hsign : splitSign digits = (false, digits) := by
    unfold splitSign
    split
    · exact absurd (h.isDigit '-' List.mem_cons_self) (by decide)
    · exact absurd (h.isDigit '+' List.mem_cons_self) (by decide)
    · rfl
  have hstrip : strip digits = digits :=
    strip_eq_self (fun c hc => isSpace_of_isDigit (h.isDigit c (List.mem_of_mem_head? hc)))
      fun c hc => isSpace_of_isDigit (h.isDigit c (List.mem_of_mem_getLast? hc))
  unfold readInt
  rw [hstrip, dropUnderscores_of_isDigit h.isDigit, Option.bind_some]
  dsimp only
  rw [hsign]
  simp [hall, h.ne_nil]

theorem IsNumeral.readInt_neg (h : IsNumeral digits) :
    readInt ('-' :: digits) = some (true, digits) := by
  have hall : digits.all Str.isDecimal = true :=
    List.all_eq_true.mpr fun c hc => Str.isDecimal_of_isDigit (h.isDigit c hc)
  have hstrip : strip ('-' :: digits) = '-' :: digits := by
    apply strip_eq_self
    · intro c hc
      cases hc
      decide
    · intro c hc
      rw [List.getLast?_cons, List.getLast?_eq_some_getLast h.ne_nil] at hc
      cases hc
      exact isSpace_of_isDigit (h.isDigit _ (List.getLast_mem h.ne_nil))
  unfold readInt
  rw [hstrip, dropUnderscores, if_neg (by decide), dropUnderscores_of_isDigit h.isDigit]
  show (if digits.isEmpty || !digits.all Str.isDecimal then none else some (true, digits)) = _
  simp [hall, h.ne_nil]

theorem decimalValue_of_isDigit {c : Char} (h : c.isDigit = true) :
    decimalValue c = c.toNat - 48 := by
  have hrange := Str.toNat_of_isDigit h
  unfold decimalValue
  rw [show Str.decimalZeros = 0x30 :: Str.decimalZeros.tail from rfl,
    List.find?_cons_of_pos (by simpa using hrange)]

theorem ofDigits_toDigits (n : ℕ) : ofDigits (Nat.toDigits 10 n) = n := by
  have hfold : ∀ (digits : Str) (start : ℕ), (∀ c ∈ digits, c.isDigit = true) →
      digits.foldl (fun n c => 10 * n + decimalValue c) start =
        Nat.ofDigitChars 10 digits start := by
    intro digits
    induction digits with
    | nil => exact fun _ _ => rfl
    | cons c digits ih =>
      intro start h
      rw [List.foldl_cons, Nat.ofDigitChars_cons, ih _ fun d hd => h d (List.mem_cons_of_mem c hd),
        decimalValue_of_isDigit (h c List.mem_cons_self)]
      rfl
  rw [ofDigits, hfold _ 0 (isNumeral_toDigits n).isDigit, Nat.ofDigitChars_ten_toDigits]

/-! ### Integers -/

theorem readInt_intText (n : ℤ) :
    readInt (JsonDumps.intText n) = some (decide (n < 0), Nat.toDigits 10 n.natAbs) := by
  unfold JsonDumps.intText
  split_ifs with hn
  · rw [(isNumeral_toDigits n.natAbs).readInt_neg, decide_eq_true hn]
  · rw [(isNumeral_toDigits n.natAbs).readInt_eq, decide_eq_false hn]

theorem signed_natAbs (n : ℤ) :
    (if decide (n < 0) = true then -(n.natAbs : ℤ) else n.natAbs) = n := by
  split_ifs with h
  · have := of_decide_eq_true h
    omega
  · have := of_decide_eq_false (Bool.not_eq_true _ ▸ h)
    omega

/-- `int(str(n))`. -/
theorem toInt_intText (text : JsonText) {n : ℤ} (h : (Nat.toDigits 10 n.natAbs).length ≤ 4300) :
    text.toInt (.str (JsonDumps.intText n)) = .ok n := by
  rw [JsonText.toInt, readInt_intText]
  dsimp only
  rw [if_neg (by omega), ofDigits_toDigits, signed_natAbs]

end MarketplacePipeline.Number
