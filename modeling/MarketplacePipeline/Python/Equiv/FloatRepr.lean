import MarketplacePipeline.Python.Equiv.FloatRounding
import MarketplacePipeline.Python.Equiv.JsonDumps
import MarketplacePipeline.Python.Equiv.Number

/-!
# Reading back the text of a float

The text of a float is a numeral of JSON (`Numeral`), which `float` reads as the decimal it writes;
so `float(repr(x))` is `x` (`magnitude_floatOfRepr`).
-/

namespace MarketplacePipeline

open JsonLoads JsonGrammar

namespace Number

/-! ### Digits -/

theorem isDigit_eq (c : Char) : JsonLoads.isDigit c = c.isDigit := by
  rw [Bool.eq_iff_iff]
  simp only [JsonLoads.isDigit, Char.isDigit, ge_iff_le, Bool.and_eq_true, decide_eq_true_eq]
  exact Iff.rfl

theorem ofDigits_append (a b : Str) :
    ofDigits (a ++ b) = ofDigits a * 10 ^ b.length + ofDigits b := by
  have hfold : ∀ (b : Str) (start : ℕ),
      b.foldl (fun n c => 10 * n + decimalValue c) start =
        start * 10 ^ b.length + ofDigits b := by
    intro b
    induction b with
    | nil => exact fun _ => by simp [ofDigits]
    | cons c b ih =>
      intro start
      have hstart : ofDigits (c :: b) = decimalValue c * 10 ^ b.length + ofDigits b := by
        rw [ofDigits, List.foldl_cons, ih, Nat.mul_zero, Nat.zero_add]
      rw [List.foldl_cons, ih, hstart, List.length_cons, pow_succ]
      ring
  rw [ofDigits, List.foldl_append, hfold]
  rfl

theorem ofDigits_zeros (n : ℕ) : ofDigits (List.replicate n '0') = 0 := by
  induction n with
  | zero => rfl
  | succ n ih =>
    rw [List.replicate_succ', ofDigits_append, ih]
    decide

/-! ### Numerals -/

/-- A point and the digits behind it, if there are any. -/
def fractionText (fraction : Str) : Str := if fraction = [] then [] else '.' :: fraction

/-- A numeral of JSON with a point or an exponent, and the decimal that it writes. -/
structure Numeral (whole fraction exponent : Str) (value : ℚ) : Prop where
  isWhole : Whole whole
  isDigit : ∀ c ∈ fraction, JsonLoads.isDigit c = true
  isExponent : Exponent exponent
  any : fraction ≠ [] ∨ exponent ≠ []
  value_eq : ∃ e, readExponent exponent = some e ∧
    value = ofDigits (whole ++ fraction) * 10 ^ (e - fraction.length)

theorem fraction_fractionText {fraction : Str} (h : ∀ c ∈ fraction, JsonLoads.isDigit c = true) :
    Fraction (fractionText fraction) := by
  unfold fractionText
  split_ifs with hnil
  · exact Or.inl rfl
  · exact Or.inr ⟨fraction, ⟨hnil, h⟩, rfl⟩

variable {whole fraction exponent : Str} {value : ℚ}

theorem Numeral.numberText {float : Str → Str} (h : Numeral whole fraction exponent value)
    (hfloat : float (whole ++ fractionText fraction ++ exponent) =
      whole ++ fractionText fraction ++ exponent) :
    NumberText float (.float (whole ++ fractionText fraction ++ exponent))
      (whole ++ fractionText fraction ++ exponent) := by
  have hany : ¬ (fractionText fraction = [] ∧ exponent = []) := by
    rintro ⟨hfraction, hexponent⟩
    rcases h.any with hne | hne
    · unfold fractionText at hfraction
      rw [if_neg hne] at hfraction
      cases hfraction
    · exact hne hexponent
  have hnumber := (NumberText.float false h.isWhole (fraction_fractionText h.isDigit) h.isExponent
    hany : NumberText float _ _)
  simp only [signText, Bool.false_eq_true, if_false, List.nil_append] at hnumber
  rw [hfloat] at hnumber
  exact hnumber

theorem isNumeral_of_digits {digits : Str} (h : Digits digits) : IsNumeral digits :=
  ⟨h.1, fun c hc => (isDigit_eq c).symm.trans (h.2 c hc)⟩

theorem isNumeral_of_whole (h : Whole whole) : IsNumeral whole := by
  rcases h with rfl | ⟨hdigits, -⟩
  · exact isNumeral_of_digits ⟨by simp, by simp; decide⟩
  · exact isNumeral_of_digits hdigits

theorem dropUnderscores_of_notMem {text : Str} (h : '_' ∉ text) (afterDigit : Bool) :
    dropUnderscores afterDigit text = some text := by
  induction text generalizing afterDigit with
  | nil => rfl
  | cons c text ih =>
    rw [List.mem_cons, not_or] at h
    obtain ⟨hc, htext⟩ := h
    rw [dropUnderscores, if_neg (Ne.symm hc), ih htext]
    rfl

/-- The characters of a numeral that are no digits. -/
def isMark (c : Char) : Bool := c = '.' || c = 'e' || c = 'E' || c = '+' || c = '-'

/-- The exponent is empty, or begins with a letter and ends with a digit. -/
theorem exponent_cases (h : Exponent exponent) : exponent = [] ∨
    (∃ e rest, exponent = e :: rest ∧ isMark e = true ∧ e ≠ '.') ∧
      (∀ c ∈ exponent, c.isDigit = true ∨ isMark c = true) ∧
      ∃ hne : exponent ≠ [], (exponent.getLast hne).isDigit = true := by
  rcases h with rfl | ⟨e, sign, digits, he, hsign, hdigits, rfl⟩
  · exact Or.inl rfl
  · have hnumeral := isNumeral_of_digits hdigits
    have hmark : isMark e = true ∧ e ≠ '.' := by
      rcases he with rfl | rfl <;> decide
    have hsigned : ∀ c ∈ sign, isMark c = true := by
      rcases hsign with rfl | rfl | rfl <;> simp [isMark]
    refine Or.inr ⟨⟨e, _, rfl, hmark.1, hmark.2⟩, ?_, List.cons_ne_nil _ _, ?_⟩
    · intro c hc
      rcases List.mem_cons.mp hc with rfl | hc
      · exact Or.inr hmark.1
      · rcases List.mem_append.mp hc with hc | hc
        · exact Or.inr (hsigned c hc)
        · exact Or.inl (hnumeral.isDigit c hc)
    · have hlast : (e :: (sign ++ digits)).getLast (List.cons_ne_nil _ _) =
          digits.getLast hnumeral.ne_nil := by
        rw [List.getLast_cons (by simp [hnumeral.ne_nil]), List.getLast_append_of_ne_nil]
      rw [hlast]
      exact hnumeral.isDigit _ (List.getLast_mem _)

theorem isDecimal_of_isMark {c : Char} (h : isMark c = true) : Str.isDecimal c = false := by
  unfold isMark at h
  simp only [Bool.or_eq_true, decide_eq_true_eq] at h
  rcases h with (((rfl | rfl) | rfl) | rfl) | rfl <;> decide

theorem toLower_of_isDigit {c : Char} (h : c.isDigit = true) : c.toLower = c := by
  have hrange := Str.toNat_of_isDigit h
  unfold Char.toLower
  apply dif_neg
  rw [ge_iff_le, UInt32.le_iff_toNat_le]
  rintro ⟨hle, -⟩
  have hle : 65 ≤ c.toNat := hle
  omega

/-- A text of digits ends before a mark. -/
theorem span_isDecimal {digits rest : Str} (h : ∀ c ∈ digits, c.isDigit = true)
    (hrest : ∀ c ∈ rest.head?, isMark c = true) :
    (digits ++ rest).takeWhile Str.isDecimal = digits ∧
      (digits ++ rest).dropWhile Str.isDecimal = rest := by
  have hall : ∀ c ∈ digits, Str.isDecimal c = true := fun c hc => Str.isDecimal_of_isDigit (h c hc)
  rw [List.takeWhile_append_of_pos hall, List.dropWhile_append_of_pos hall]
  cases rest with
  | nil => simp
  | cons c rest =>
    have hc : ¬ Str.isDecimal c = true := by
      rw [isDecimal_of_isMark (hrest c rfl)]
      exact Bool.false_ne_true
    rw [List.takeWhile_cons_of_neg hc, List.dropWhile_cons_of_neg hc]
    simp

namespace Numeral

variable (h : Numeral whole fraction exponent value)

include h

theorem isDigit_fraction : ∀ c ∈ fraction, c.isDigit = true := fun c hc =>
  (isDigit_eq c).symm.trans (h.isDigit c hc)

theorem head_exponent : ∀ c ∈ exponent.head?, isMark c = true := by
  rcases exponent_cases h.isExponent with hnil | ⟨⟨e, rest, heq, hmark, -⟩, -⟩
  · rw [hnil]
    exact fun _ hc => by cases hc
  · rw [heq]
    exact fun c hc => Option.some.inj hc ▸ hmark

theorem head_rest : ∀ c ∈ (fractionText fraction ++ exponent).head?, isMark c = true := by
  unfold fractionText
  split_ifs
  · exact h.head_exponent
  · exact fun c hc => Option.some.inj hc ▸ rfl

/-- The characters of the text. -/
theorem mem_text : ∀ c ∈ whole ++ fractionText fraction ++ exponent,
    c.isDigit = true ∨ isMark c = true := by
  intro c hc
  rw [List.mem_append, List.mem_append] at hc
  rcases hc with (hc | hc) | hc
  · exact Or.inl ((isNumeral_of_whole h.isWhole).isDigit c hc)
  · unfold fractionText at hc
    split_ifs at hc with hnil
    · cases hc
    · rcases List.mem_cons.mp hc with rfl | hc
      · exact Or.inr rfl
      · exact Or.inl (h.isDigit_fraction c hc)
  · rcases exponent_cases h.isExponent with hnil | ⟨-, hmem, -⟩
    · rw [hnil] at hc
      cases hc
    · exact hmem c hc

theorem head_text : ∃ c rest, whole = c :: rest ∧ c.isDigit = true := by
  have hnumeral := isNumeral_of_whole h.isWhole
  obtain ⟨c, rest, heq⟩ := List.exists_cons_of_ne_nil hnumeral.ne_nil
  exact ⟨c, rest, heq, hnumeral.isDigit c (heq ▸ List.mem_cons_self)⟩

theorem last_text : ∀ c ∈ (whole ++ fractionText fraction ++ exponent).getLast?,
    c.isDigit = true := by
  intro c hc
  rcases exponent_cases h.isExponent with hnil | ⟨-, -, hne, hlast⟩
  · have hfraction : fraction ≠ [] := h.any.resolve_right fun hne => hne hnil
    have htext : fractionText fraction = '.' :: fraction := if_neg hfraction
    rw [hnil, List.append_nil, htext, List.getLast?_append_of_ne_nil _ (by simp),
      List.getLast?_cons, List.getLast?_eq_some_getLast hfraction] at hc
    cases hc
    exact h.isDigit_fraction _ (List.getLast_mem hfraction)
  · rw [List.getLast?_append_of_ne_nil _ hne, List.getLast?_eq_some_getLast hne] at hc
    cases hc
    exact hlast

theorem strip_text : strip (whole ++ fractionText fraction ++ exponent) =
    whole ++ fractionText fraction ++ exponent := by
  obtain ⟨first, others, hwhole, hfirst⟩ := h.head_text
  apply strip_eq_self
  · intro c hc
    rw [hwhole] at hc
    cases hc
    exact isSpace_of_isDigit hfirst
  · exact fun c hc => isSpace_of_isDigit (h.last_text c hc)

theorem dropUnderscores_text : dropUnderscores false (whole ++ fractionText fraction ++ exponent) =
    some (whole ++ fractionText fraction ++ exponent) := by
  apply dropUnderscores_of_notMem
  intro hmem
  rcases h.mem_text '_' hmem with hc | hc <;> cases hc

theorem splitSign_text : splitSign (whole ++ fractionText fraction ++ exponent) =
    (false, whole ++ fractionText fraction ++ exponent) := by
  obtain ⟨first, others, hwhole, hfirst⟩ := h.head_text
  rw [hwhole]
  unfold splitSign
  split
  · rename_i heq
    cases heq
    cases hfirst
  · rename_i heq
    cases heq
    cases hfirst
  · rfl

/-- The text is none of the words that `float` knows. -/
theorem ne_word {c : Char} (hc : c.isDigit = false) (word : Str) :
    (whole ++ fractionText fraction ++ exponent).map Char.toLower ≠ c :: word := by
  obtain ⟨first, others, hwhole, hfirst⟩ := h.head_text
  intro heq
  rw [hwhole] at heq
  have hhead : first.toLower = c := (List.cons.inj heq).1
  rw [toLower_of_isDigit hfirst] at hhead
  rw [hhead, hc] at hfirst
  cases hfirst

/-- `float` reads the numeral as the decimal that it writes. -/
theorem readFloat_eq : readFloat (whole ++ fractionText fraction ++ exponent) =
    some (.ofMagnitude false value) := by
  obtain ⟨first, others, hwhole, hfirst⟩ := h.head_text
  obtain ⟨e, hread, hvalue⟩ := h.value_eq
  obtain ⟨htake, hdrop⟩ := span_isDecimal (isNumeral_of_whole h.isWhole).isDigit h.head_rest
  unfold readFloat
  rw [h.strip_text, h.dropUnderscores_text, Option.bind_some, h.splitSign_text]
  dsimp only
  unfold readUnsignedFloat
  dsimp only
  have hnan : _ ≠ "nan".toList := h.ne_word (c := 'n') rfl "an".toList
  have hinf : _ ≠ "inf".toList := h.ne_word (c := 'i') rfl "nf".toList
  have hinfinity : _ ≠ "infinity".toList := h.ne_word (c := 'i') rfl "nfinity".toList
  rw [if_neg hnan, if_neg (not_or.mpr ⟨hinf, hinfinity⟩), List.append_assoc, htake, hdrop, hvalue]
  -- behind the whole digits comes the exponent, or the point and the fraction
  by_cases hnil : fraction = []
  · have hrest : fractionText fraction ++ exponent = exponent := by
      rw [fractionText, if_pos hnil]
      rfl
    rw [hrest]
    rcases exponent_cases h.isExponent with hexponent | ⟨⟨mark, rest, hexponent, -, hpoint⟩, -⟩
    · exact (h.any.elim (· hnil) (· hexponent)).elim
    · rw [hexponent] at hread ⊢
      simp [hpoint, hwhole, hnil, hread, ofDecimal]
  · have hrest : fractionText fraction ++ exponent = '.' :: (fraction ++ exponent) := by
      rw [fractionText, if_neg hnil]
      rfl
    obtain ⟨htake', hdrop'⟩ := span_isDecimal h.isDigit_fraction h.head_exponent
    rw [hrest]
    simp [htake', hdrop', hwhole, hread, ofDecimal]

end Numeral

/-! ### Exponents -/

theorem readExponent_signed (negative : Bool) {digits : Str} (h : IsNumeral digits) :
    readExponent ('e' :: (if negative then '-' else '+') :: digits) =
      some (if negative then -(ofDigits digits : ℤ) else ofDigits digits) := by
  have hall : digits.all Str.isDecimal = true :=
    List.all_eq_true.mpr fun c hc => Str.isDecimal_of_isDigit (h.isDigit c hc)
  cases negative <;> simp [readExponent, splitSign, hall, h.ne_nil]

theorem isDigit_of_mem_padded {width n : ℕ} {c : Char} (h : c ∈ padded width n) :
    c.isDigit = true := by
  induction width generalizing n with
  | zero => cases h
  | succ width ih =>
    rw [padded, List.mem_append, List.mem_singleton] at h
    rcases h with h | rfl
    · exact ih h
    · have hall : ∀ d < 10, (digit d).isDigit = true := by decide
      exact hall _ (Nat.mod_lt n (by omega))

theorem decimalValue_digit {n : ℕ} (h : n < 10) : decimalValue (digit n) = n := by
  have hall : ∀ n < 10, (digit n).isDigit = true ∧ (digit n).toNat - 48 = n := by decide
  rw [decimalValue_of_isDigit (hall n h).1, (hall n h).2]

theorem ofDigits_padded {width n : ℕ} (h : n < 10 ^ width) : ofDigits (padded width n) = n := by
  induction width generalizing n with
  | zero =>
    obtain rfl : n = 0 := by omega
    rfl
  | succ width ih =>
    have hdiv : n / 10 < 10 ^ width := by
      rw [pow_succ] at h
      omega
    have hlast : ofDigits [digit (n % 10)] = n % 10 := by
      rw [ofDigits, List.foldl_cons, decimalValue_digit (Nat.mod_lt n (by omega))]
      exact Nat.zero_add _
    rw [padded, ofDigits_append, ih hdiv, hlast, List.length_singleton, pow_one, Nat.mul_comm]
    exact Nat.div_add_mod n 10

/-- The digits of the exponent. -/
theorem exponent_digits (n : ℕ) :
    IsNumeral (if n < 10 then padded 2 n else Nat.toDigits 10 n) ∧
      ofDigits (if n < 10 then padded 2 n else Nat.toDigits 10 n) = n := by
  split_ifs with hn
  · refine ⟨⟨fun hnil => ?_, fun c hc => isDigit_of_mem_padded hc⟩, ofDigits_padded (by omega)⟩
    have hlength := length_padded 2 n
    rw [hnil] at hlength
    cases hlength
  · exact ⟨isNumeral_toDigits n, ofDigits_toDigits n⟩

theorem readExponent_exponentText (e : ℤ) : readExponent (Decimal.exponentText e) = some e := by
  obtain ⟨hnumeral, hvalue⟩ := exponent_digits e.natAbs
  have hread := readExponent_signed (decide (e < 0)) hnumeral
  rw [hvalue, signed_natAbs] at hread
  simpa [Decimal.exponentText] using hread

theorem digits_of_isNumeral {digits : Str} (h : IsNumeral digits) : Digits digits :=
  ⟨h.ne_nil, fun c hc => (isDigit_eq c).trans (h.isDigit c hc)⟩

theorem exponent_exponentText (e : ℤ) : Exponent (Decimal.exponentText e) := by
  obtain ⟨hnumeral, -⟩ := exponent_digits e.natAbs
  refine Or.inr ⟨'e', [if e < 0 then '-' else '+'], _, Or.inl rfl, Or.inr ?_,
    digits_of_isNumeral hnumeral, rfl⟩
  split_ifs
  · exact Or.inr rfl
  · exact Or.inl rfl

end Number

namespace Decimal

open Number

variable {d : Decimal}

/-! ### The digits of a decimal -/

theorem toDigits_eq (d : Decimal) : ∃ zeros, Nat.toDigits 10 d.digits =
    d.significant ++ List.replicate zeros '0' := by
  refine ⟨((Nat.toDigits 10 d.digits).rtakeWhile (· = '0')).length, ?_⟩
  have hzeros : (Nat.toDigits 10 d.digits).rtakeWhile (· = '0') =
      List.replicate ((Nat.toDigits 10 d.digits).rtakeWhile (· = '0')).length '0' :=
    List.eq_replicate_iff.mpr ⟨rfl, fun c hc => by simpa using List.mem_rtakeWhile_imp hc⟩
  rw [← hzeros]
  exact (List.rdropWhile_append_rtakeWhile).symm

/-- The first digit is no zero. -/
theorem significant_spec (hd : 0 < d.digits) :
    Digits d.significant ∧ d.significant.head? ≠ some '0' := by
  have hhead := head?_toDigits hd.ne'
  obtain ⟨zeros, heq⟩ := d.toDigits_eq
  have hmem : ∀ c ∈ d.significant, JsonLoads.isDigit c = true := fun c hc =>
    isDigit_toDigits (n := d.digits) (heq ▸ List.mem_append_left _ hc)
  refine ⟨⟨fun hnil => ?_, hmem⟩, ?_⟩
  · rw [hnil, List.nil_append] at heq
    cases zeros with
    | zero => exact Nat.toDigits_ne_nil heq
    | succ zeros =>
      rw [heq] at hhead
      exact hhead rfl
  · intro hzero
    rw [heq, List.head?_append, hzero] at hhead
    exact hhead rfl

theorem value_eq (d : Decimal) :
    d.value = ofDigits d.significant * 10 ^ (d.point - d.significant.length) := by
  obtain ⟨zeros, heq⟩ := d.toDigits_eq
  have hdigits := ofDigits_toDigits d.digits
  rw [heq, ofDigits_append, ofDigits_zeros, List.length_replicate, Nat.add_zero] at hdigits
  have hpoint : d.point - d.significant.length = zeros + d.exponent := by
    rw [point, heq, List.length_append, List.length_replicate]
    push_cast
    ring
  rw [hpoint, zpow_add₀ (by norm_num), zpow_natCast, value, ← hdigits]
  push_cast
  ring

/-! ### The text of a decimal -/

section Texts

variable {digits : Str}

/-- Some of the digits, from the first one on. -/
theorem whole_take (hdigits : Digits digits) (hhead : digits.head? ≠ some '0') {n : ℕ}
    (hn : 0 < n) : Whole (digits.take n) := by
  obtain ⟨c, rest, rfl⟩ := List.exists_cons_of_ne_nil hdigits.1
  obtain ⟨n, rfl⟩ := Nat.exists_eq_succ_of_ne_zero hn.ne'
  rw [List.take_succ_cons]
  refine Or.inr ⟨⟨List.cons_ne_nil _ _, fun c' hc => hdigits.2 c' ?_⟩, hhead⟩
  rcases List.mem_cons.mp hc with rfl | hc
  · exact List.mem_cons_self
  · exact List.mem_cons_of_mem _ (List.mem_of_mem_take hc)

/-- `d.ddde+xx`. -/
theorem numeral_far (hdigits : Digits digits) (hhead : digits.head? ≠ some '0') (point : ℤ) :
    Numeral (digits.take 1) (digits.drop 1) (exponentText (point - 1))
      (ofDigits digits * 10 ^ (point - digits.length)) where
  isWhole := whole_take hdigits hhead one_pos
  isDigit c hc := hdigits.2 c (List.mem_of_mem_drop hc)
  isExponent := exponent_exponentText _
  any := Or.inr (List.cons_ne_nil _ _)
  value_eq := by
    refine ⟨point - 1, readExponent_exponentText _, ?_⟩
    have hlength := List.length_pos_of_ne_nil hdigits.1
    rw [List.take_append_drop, List.length_drop]
    congr 2
    omega

/-- `0.000ddd`. -/
theorem numeral_small (hdigits : Digits digits) {point : ℤ} (hpoint : point ≤ 0) :
    Numeral ['0'] (List.replicate (-point).toNat '0' ++ digits) []
      (ofDigits digits * 10 ^ (point - digits.length)) where
  isWhole := Or.inl rfl
  isDigit c hc := by
    rcases List.mem_append.mp hc with hc | hc
    · rw [List.eq_of_mem_replicate hc]
      rfl
    · exact hdigits.2 c hc
  isExponent := Or.inl rfl
  any := Or.inl fun hnil => hdigits.1 (List.append_eq_nil_iff.mp hnil).2
  value_eq := by
    refine ⟨0, rfl, ?_⟩
    have hzeros : ofDigits (['0'] ++ (List.replicate (-point).toNat '0' ++ digits)) =
        ofDigits digits := by
      rw [ofDigits_append, ofDigits_append, ofDigits_zeros, Nat.zero_mul, Nat.zero_add]
      exact (congrArg (· + ofDigits digits) (Nat.zero_mul _)).trans (Nat.zero_add _)
    rw [hzeros, List.length_append, List.length_replicate]
    congr 2
    omega

/-- `ddd000.0`. -/
theorem numeral_large (hdigits : Digits digits) (hhead : digits.head? ≠ some '0') {point : ℕ}
    (hpoint : digits.length ≤ point) :
    Numeral (digits ++ List.replicate (point - digits.length) '0') ['0'] []
      (ofDigits digits * 10 ^ ((point : ℤ) - digits.length)) where
  isWhole := by
    refine Or.inr ⟨⟨fun hnil => hdigits.1 (List.append_eq_nil_iff.mp hnil).1, fun c hc => ?_⟩, ?_⟩
    · rcases List.mem_append.mp hc with hc | hc
      · exact hdigits.2 c hc
      · rw [List.eq_of_mem_replicate hc]
        rfl
    · rw [List.head?_append_of_ne_nil _ hdigits.1]
      exact hhead
  isDigit c hc := by
    rw [List.mem_singleton.mp hc]
    rfl
  isExponent := Or.inl rfl
  any := Or.inl (List.cons_ne_nil _ _)
  value_eq := by
    refine ⟨0, rfl, ?_⟩
    have hzero : ofDigits ['0'] = 0 := ofDigits_zeros 1
    obtain ⟨zeros, rfl⟩ := Nat.exists_eq_add_of_le hpoint
    rw [ofDigits_append, ofDigits_append, ofDigits_zeros, List.length_replicate, hzero,
      Nat.add_sub_cancel_left, show ((digits.length + zeros : ℕ) : ℤ) - digits.length = zeros by
        push_cast
        ring, zpow_natCast]
    push_cast [List.length_singleton]
    norm_num
    ring

/-- `dd.ddd`. -/
theorem numeral_between (hdigits : Digits digits) (hhead : digits.head? ≠ some '0') {point : ℕ}
    (hpos : 0 < point) (hpoint : point < digits.length) :
    Numeral (digits.take point) (digits.drop point) []
      (ofDigits digits * 10 ^ ((point : ℤ) - digits.length)) where
  isWhole := whole_take hdigits hhead hpos
  isDigit c hc := hdigits.2 c (List.mem_of_mem_drop hc)
  isExponent := Or.inl rfl
  any := Or.inl fun hnil => by
    rw [List.drop_eq_nil_iff] at hnil
    omega
  value_eq := by
    refine ⟨0, rfl, ?_⟩
    rw [List.take_append_drop, List.length_drop]
    congr 2
    omega

end Texts

/-- The text of a decimal is a numeral that writes it. -/
theorem text_numeral (hd : 0 < d.digits) : ∃ whole fraction exponent,
    d.text = whole ++ fractionText fraction ++ exponent ∧
      Numeral whole fraction exponent d.value := by
  obtain ⟨hdigits, hhead⟩ := significant_spec hd
  rw [d.value_eq]
  unfold text
  generalize d.significant = digits at *
  generalize d.point = point at *
  -- the four notations of `repr`, by where the point stands
  have hlength := List.length_pos_of_ne_nil hdigits.1
  by_cases hfar : point ≤ -4 ∨ 16 < point
  · refine ⟨_, _, _, ?_, numeral_far hdigits hhead point⟩
    have hfraction : (if digits.length ≤ 1 then [] else '.' :: digits.drop 1) =
        fractionText (digits.drop 1) := by
      unfold fractionText
      simp only [List.drop_eq_nil_iff]
    rw [if_pos hfar, hfraction]
  rw [if_neg hfar]
  by_cases hsmall : point ≤ 0
  · refine ⟨_, _, _, ?_, numeral_small hdigits hsmall⟩
    rw [if_pos hsmall, fractionText, if_neg (by simp [hdigits.1])]
    simp
  rw [if_neg hsmall]
  dsimp only
  obtain ⟨n, rfl⟩ : ∃ n : ℕ, point = n := ⟨point.toNat, by omega⟩
  rw [Int.toNat_natCast]
  by_cases hlarge : digits.length ≤ n
  · refine ⟨_, _, _, ?_, numeral_large hdigits hhead hlarge⟩
    have hn : (digits ++ List.replicate (n - digits.length) '0').length = n := by
      rw [List.length_append, List.length_replicate]
      omega
    rw [hn, if_pos le_rfl, List.take_of_length_le hn.le, List.append_nil]
    rfl
  · refine ⟨_, _, _, ?_, numeral_between hdigits hhead (by omega) (not_le.mp hlarge)⟩
    rw [Nat.sub_eq_zero_of_le (by omega), List.replicate_zero, List.append_nil, if_neg hlarge,
      fractionText, if_neg (by simpa using hlarge), List.append_nil]

end Decimal

/-! ### Floats -/

namespace PyFloat

variable {q : ℚ}

theorem reprMagnitude_numeral (h : IsMagnitude q) (hq : 0 ≤ q) :
    ∃ whole fraction exponent d,
      reprMagnitude q = whole ++ Number.fractionText fraction ++ exponent ∧
      Number.Numeral whole fraction exponent d ∧ nearest d = some q := by
  unfold reprMagnitude
  rcases hq.eq_or_lt with rfl | hpos
  · refine ⟨['0'], ['0'], [], 0, by simp [Number.fractionText], ⟨Or.inl rfl, by simp; decide,
      Or.inl rfl, by simp, 0, rfl, ?_⟩, nearest_zero⟩
    rw [show Number.ofDigits (['0'] ++ ['0']) = 0 from Number.ofDigits_zeros 2, Nat.cast_zero,
      zero_mul]
  · obtain ⟨d, hd, hnearest, hdigits⟩ := Decimal.shortest_spec h hpos
    obtain ⟨whole, fraction, exponent, htext, hnumeral⟩ := Decimal.text_numeral hdigits
    rw [if_neg hpos.ne', hd]
    exact ⟨whole, fraction, exponent, d.value, htext, hnumeral, hnearest⟩

/-- **Round trip**: `float` reads the text of a magnitude as this magnitude. -/
theorem magnitude_floatOfRepr (h : IsMagnitude q) (hq : 0 ≤ q) :
    (Number.floatOfRepr (reprMagnitude q)).magnitude? = some q := by
  obtain ⟨whole, fraction, exponent, d, htext, hnumeral, hnearest⟩ := reprMagnitude_numeral h hq
  unfold Number.floatOfRepr
  rw [htext, hnumeral.readFloat_eq]
  exact hnearest

theorem repr_ofMagnitude {d : ℚ} (h : nearest d = some q) :
    (ofMagnitude false d).repr = reprMagnitude q := by
  have hsign : ∀ x, ofMagnitude false d = .finite x → x.negative = false := by
    intro x hx
    unfold ofMagnitude at hx
    dsimp only at hx
    split_ifs at hx <;> cases hx <;> rfl
  unfold nearest at h
  cases hfloat : ofMagnitude false d with
  | nan =>
    rw [hfloat] at h
    cases h
  | inf negative =>
    rw [hfloat] at h
    cases h
  | finite x =>
    rw [hfloat] at h
    have hmagnitude : x.magnitude = q := Option.some.inj h
    rw [repr, hsign x hfloat, hmagnitude, if_neg Bool.false_ne_true]
    rfl

/-- The `repr` of a price. -/
theorem repr_ofRat (h : IsMagnitude q) (hq : 0 ≤ q) : (ofRat q).repr = reprMagnitude q := by
  unfold ofRat
  rw [decide_eq_false (not_lt.mpr hq), abs_of_nonneg hq]
  exact repr_ofMagnitude (h.nearest_self hq)

theorem repr_floatOfRepr (h : IsMagnitude q) (hq : 0 ≤ q) :
    (Number.floatOfRepr (reprMagnitude q)).repr = reprMagnitude q := by
  obtain ⟨whole, fraction, exponent, d, htext, hnumeral, hnearest⟩ := reprMagnitude_numeral h hq
  have hread : Number.floatOfRepr (reprMagnitude q) = ofMagnitude false d := by
    unfold Number.floatOfRepr
    rw [htext, hnumeral.readFloat_eq]
    rfl
  rw [hread, repr_ofMagnitude hnearest]

/-- The `repr` is a numeral of JSON. -/
theorem numberText_reprMagnitude (h : IsMagnitude q) (hq : 0 ≤ q) :
    NumberText (fun numeral => (Number.floatOfRepr numeral).repr) (.float (reprMagnitude q))
      (reprMagnitude q) := by
  have hrepr := repr_floatOfRepr h hq
  obtain ⟨whole, fraction, exponent, d, htext, hnumeral, -⟩ := reprMagnitude_numeral h hq
  rw [htext] at hrepr ⊢
  exact hnumeral.numberText hrepr

end PyFloat

end MarketplacePipeline
