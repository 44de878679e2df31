import MarketplacePipeline.Python.JsonGrammar

/-!
# `json.loads` and the grammar of JSON

`loads` gives the value of every JSON text, however it is written (`loads_of_textOf`).  Each reader
takes a text of its kind and leaves what is behind it, if this cannot be a part of a number.
-/

namespace MarketplacePipeline.JsonGrammar

open JsonDumps JsonLoads

/-! ### Whitespace -/

/-- A text that does not begin with whitespace. -/
def NoSpace (text : Str) : Prop := ∀ c ∈ text.head?, isSpace c = false

theorem skipSpace_append {w text : Str} (hw : Space w) (h : NoSpace text) :
    skipSpace (w ++ text) = text := by
  unfold skipSpace
  rw [List.dropWhile_append_of_pos hw]
  cases text with
  | nil => rfl
  | cons c text => rw [List.dropWhile_cons_of_neg (by simp [h c rfl])]

theorem skipSpace_append_cons {w : Str} {c : Char} (text : Str) (hw : Space w)
    (hc : isSpace c = false) : skipSpace (w ++ c :: text) = c :: text :=
  skipSpace_append hw fun _ h => by
    cases h
    exact hc

theorem skipSpace_of_space {w : Str} (hw : Space w) : skipSpace w = [] := by
  have hempty : NoSpace [] := fun _ h => by cases h
  have hskip := skipSpace_append hw hempty
  rwa [List.append_nil] at hskip

/-! ### Texts -/

theorem scanUnit_of_unit {n : ℕ} (h : n < 0xd800 ∨ 0xdfff < n) (rest : Str) :
    scanUnit n rest = some (Char.ofNat n, rest) := if_pos h

theorem scanChar_of_charText {c : Char} {t : Str} (h : CharText c t) (rest : Str) :
    scanChar (t ++ rest) = some (c, rest) := by
  cases h with
  | plain hquote hescape hcontrol =>
    show scanChar (c :: rest) = _
    unfold scanChar
    split
    · rename_i heq
      exact absurd (List.cons.inj heq).1 hescape
    · rename_i heq
      exact absurd (List.cons.inj heq).1 hescape
    · rename_i heq
      obtain ⟨rfl, rfl⟩ := List.cons.inj heq
      rw [if_neg (by simp [hquote, hescape, hcontrol])]
    · rename_i heq
      cases heq
  | @short e c h =>
    show scanChar ('\\' :: e :: rest) = _
    unfold scanChar
    split
    · rename_i heq
      -- `\u` is no short escape
      obtain ⟨he, -⟩ := List.cons.inj (List.cons.inj heq).2
      rw [he] at h
      cases h
    · rename_i heq
      obtain ⟨rfl, rfl⟩ := List.cons.inj (List.cons.inj heq).2
      rw [h, Option.map_some]
    · rename_i hnot heq
      obtain ⟨rfl, rfl⟩ := List.cons.inj heq
      exact absurd rfl (hnot _ _ rfl)
    · rename_i heq
      cases heq
  | unit h hn =>
    show (scanHex _ _ _ _).bind _ = _
    rw [h, Option.bind_some, scanUnit_of_unit hn]
    rfl
  | pair h h' hhigh hlow =>
    show (scanHex _ _ _ _).bind _ = _
    rw [h, Option.bind_some]
    unfold scanUnit
    rw [if_neg (by omega)]
    show (scanHex _ _ _ _).bind _ = _
    rw [h', Option.bind_some, if_pos ⟨hhigh.2, hlow⟩]
    rfl

/-- A character begins with no quote. -/
theorem CharText.head {c : Char} {t : Str} (h : CharText c t) (rest : Str) :
    (t ++ rest).head? ≠ some '"' ∧ t ≠ [] := by
  cases h with
  | plain hquote _ _ => simpa using hquote
  | short _ | unit _ _ | pair _ _ _ _ => simp

theorem scanString_of_stringText {s t : Str} (h : StringText s t) (rest : Str) {fuel : ℕ}
    (hfuel : t.length < fuel) : scanString fuel (t ++ '"' :: rest) = some (s, rest) := by
  -- on the characters of the text, each of which may be written in several ways
  induction h generalizing fuel with
  | nil =>
    obtain ⟨fuel, rfl⟩ := Nat.exists_eq_add_of_lt hfuel
    rfl
  | @cons c s t ts hc _ ih =>
    obtain ⟨hhead, hne⟩ := hc.head (ts ++ '"' :: rest)
    have hlength := List.length_pos_of_ne_nil hne
    rw [List.length_append] at hfuel
    cases fuel with
    | zero => omega
    | succ fuel =>
      rw [List.append_assoc, scanString, if_neg hhead, scanChar_of_charText hc, Option.bind_some]
      dsimp only
      rw [ih (by omega), Option.map_some]

/-- The text behind a quote. -/
theorem scanString_length {s t : Str} (h : StringText s t) (rest : Str) :
    scanString (t ++ '"' :: rest).length (t ++ '"' :: rest) = some (s, rest) :=
  scanString_of_stringText h rest (by simp)

/-! ### Numbers -/

/-- A text that no numeral goes on with. -/
def Stops (text : Str) : Prop :=
  ∀ c ∈ text.head?, isDigit c = false ∧ c ≠ '.' ∧ c ≠ 'e' ∧ c ≠ 'E'

theorem scanDigits_append {digits rest : Str} (h : ∀ c ∈ digits, isDigit c = true)
    (hrest : ∀ c ∈ rest.head?, isDigit c = false) :
    scanDigits (digits ++ rest) = (digits, rest) := by
  unfold scanDigits
  rw [List.takeWhile_append_of_pos h, List.dropWhile_append_of_pos h]
  cases rest with
  | nil => simp
  | cons c rest => simp [hrest c rfl]

theorem scanWhole_append {whole rest : Str} (h : Whole whole)
    (hrest : ∀ c ∈ rest.head?, isDigit c = false) :
    scanWhole (whole ++ rest) = some (whole, rest) := by
  rcases h with rfl | ⟨⟨hne, hdigits⟩, hzero⟩
  · rfl
  · cases whole with
    | nil => exact absurd rfl hne
    | cons c whole =>
      unfold scanWhole
      split
      · rename_i heq
        rw [List.cons_append] at heq
        exact absurd (congrArg some (List.cons.inj heq).1) hzero
      · rw [scanDigits_append hdigits hrest, if_neg hne]

theorem scanFraction_append {fraction rest : Str} (h : Fraction fraction)
    (hrest : ∀ c ∈ rest.head?, isDigit c = false) (hpoint : rest.head? ≠ some '.') :
    scanFraction (fraction ++ rest) = (fraction, rest) := by
  unfold scanFraction
  rcases h with rfl | ⟨digits, ⟨hne, hdigits⟩, rfl⟩
  · rw [List.nil_append, if_neg fun h => hpoint h.1]
  · rw [List.cons_append, List.tail_cons, scanDigits_append hdigits hrest, if_pos ⟨rfl, hne⟩]

theorem scanSign_append {sign digits rest : Str}
    (hsign : sign = [] ∨ sign = ['+'] ∨ sign = ['-']) (h : Digits digits) :
    scanSign (sign ++ (digits ++ rest)) = (sign, digits ++ rest) := by
  rcases hsign with rfl | rfl | rfl
  · obtain ⟨hne, hdigits⟩ := h
    cases digits with
    | nil => exact absurd rfl hne
    | cons c digits =>
      have hc := hdigits c List.mem_cons_self
      show scanSign (c :: (digits ++ rest)) = _
      unfold scanSign
      split
      · rename_i heq
        rw [(List.cons.inj heq).1] at hc
        cases hc
      · rename_i heq
        rw [(List.cons.inj heq).1] at hc
        cases hc
      · rfl
  · rfl
  · rfl

theorem scanExponent_append {exponent rest : Str} (h : Exponent exponent) (hrest : Stops rest) :
    scanExponent (exponent ++ rest) = (exponent, rest) := by
  rcases h with rfl | ⟨e, sign, digits, he, hsign, hdigits, rfl⟩
  · cases rest with
    | nil => rfl
    | cons c rest =>
      obtain ⟨-, -, he, hE⟩ := hrest c rfl
      show (if (c = 'e' ∨ c = 'E') ∧ _ then _ else _) = _
      rw [if_neg fun h => h.1.elim he hE]
  · show (if (e = 'e' ∨ e = 'E') ∧ (scanDigits (scanSign (sign ++ digits ++ rest)).2).1 ≠ [] then
        (e :: ((scanSign (sign ++ digits ++ rest)).1 ++
          (scanDigits (scanSign (sign ++ digits ++ rest)).2).1),
            (scanDigits (scanSign (sign ++ digits ++ rest)).2).2)
      else _) = _
    rw [List.append_assoc, scanSign_append hsign hdigits,
      scanDigits_append hdigits.2 fun c hc => (hrest c hc).1, if_pos ⟨he, hdigits.1⟩]

theorem Whole.head_isDigit {whole : Str} (h : Whole whole) :
    ∃ c rest, whole = c :: rest ∧ isDigit c = true := by
  rcases h with rfl | ⟨⟨hne, hdigits⟩, -⟩
  · exact ⟨'0', [], rfl, rfl⟩
  · cases whole with
    | nil => exact absurd rfl hne
    | cons c rest => exact ⟨c, rest, rfl, hdigits c List.mem_cons_self⟩

theorem signText_append (negative : Bool) {whole : Str} (h : Whole whole) (rest : Str) :
    (if (signText negative ++ whole ++ rest).head? = some '-' then
      (['-'], (signText negative ++ whole ++ rest).tail)
    else (([] : Str), signText negative ++ whole ++ rest)) =
      (signText negative, whole ++ rest) := by
  cases negative with
  | true => rfl
  | false =>
    obtain ⟨c, digits, rfl, hc⟩ := h.head_isDigit
    refine if_neg fun hminus => ?_
    rw [Option.some.inj hminus] at hc
    cases hc

/-- The part of a numeral behind its digits begins with no digit. -/
theorem no_digit_of_tail {fraction exponent rest : Str} (hfraction : Fraction fraction)
    (hexponent : Exponent exponent) (hrest : Stops rest) :
    (∀ c ∈ (fraction ++ (exponent ++ rest)).head?, isDigit c = false) ∧
      (∀ c ∈ (exponent ++ rest).head?, isDigit c = false) ∧
      (exponent ++ rest).head? ≠ some '.' := by
  have htail : (∀ c ∈ (exponent ++ rest).head?, isDigit c = false) ∧
      (exponent ++ rest).head? ≠ some '.' := by
    rcases hexponent with rfl | ⟨e, sign, digits, he, -, -, rfl⟩
    · exact ⟨fun c hc => (hrest c hc).1, fun h => (hrest '.' h).2.1 rfl⟩
    · refine ⟨fun c hc => ?_, fun h => ?_⟩
      · obtain rfl := Option.some.inj hc
        rcases he with rfl | rfl <;> rfl
      · obtain rfl := Option.some.inj h
        simp at he
  refine ⟨?_, htail⟩
  rcases hfraction with rfl | ⟨digits, -, rfl⟩
  · exact htail.1
  · intro c hc
    obtain rfl := Option.some.inj hc
    rfl

section Values

variable {float : Str → Str}

theorem scanNumber_of_numberText {value : Json} {t rest : Str} (h : NumberText float value t)
    (hrest : Stops rest) : scanNumber float (t ++ rest) = some (value, rest) := by
  -- what follows a number is no digit and no mark, so that the scanner stops there
  unfold scanNumber
  cases h with
  | int negative hwhole hlength =>
    obtain ⟨hdigit, -, hpoint⟩ := no_digit_of_tail (.inl rfl) (.inl rfl) hrest
    rw [List.nil_append, List.nil_append] at hdigit
    rw [List.nil_append] at hpoint
    rw [signText_append negative hwhole]
    dsimp only
    rw [scanWhole_append hwhole hdigit, Option.bind_some]
    dsimp only
    have hfraction := scanFraction_append (.inl rfl) hdigit hpoint
    have hexponent := scanExponent_append (.inl rfl) hrest
    rw [List.nil_append] at hfraction hexponent
    rw [hfraction]
    dsimp only
    rw [hexponent, if_pos ⟨rfl, rfl⟩, if_neg (by omega)]
    cases negative <;> rfl
  | float negative hwhole hfraction hexponent hany =>
    obtain ⟨hdigit, hdigit', hpoint⟩ := no_digit_of_tail hfraction hexponent hrest
    rw [List.append_assoc, List.append_assoc, signText_append negative hwhole]
    dsimp only
    rw [scanWhole_append hwhole hdigit, Option.bind_some]
    dsimp only
    rw [scanFraction_append hfraction hdigit' hpoint]
    dsimp only
    rw [scanExponent_append hexponent hrest, if_neg hany]

/-- What a numeral begins with: a digit, perhaps behind a minus sign. -/
theorem NumberText.head {value : Json} {t : Str} (h : NumberText float value t) :
    ∃ negative d digits, t = signText negative ++ d :: digits ∧ isDigit d = true := by
  have hhead : ∀ (negative : Bool) {whole : Str} (rest : Str), Whole whole →
      ∃ negative' d digits,
        signText negative ++ (whole ++ rest) = signText negative' ++ d :: digits ∧
          isDigit d = true := by
    intro negative whole rest hwhole
    obtain ⟨d, digits, rfl, hd⟩ := hwhole.head_isDigit
    exact ⟨negative, d, _, rfl, hd⟩
  cases h with
  | int negative hwhole _ => simpa using hhead negative [] hwhole
  | float negative hwhole _ _ _ => simpa using hhead negative _ hwhole

theorem scanConstant_of_numberText {value : Json} {t : Str} (h : NumberText float value t)
    (rest : Str) : scanConstant (t ++ rest) = none := by
  obtain ⟨negative, d, digits, rfl, hd⟩ := h.head
  unfold scanConstant
  rw [Option.map_eq_none_iff, List.find?_eq_none]
  intro word hword hbegins
  -- no word begins with a digit, and the one with a minus sign goes on with a letter
  have hnot : ∀ c : Char, isDigit c = false → c ≠ d := by
    rintro c hc rfl
    rw [hd] at hc
    cases hc
  simp only [constants, List.mem_cons, List.not_mem_nil, or_false] at hword
  cases negative <;> rcases hword with rfl | rfl | rfl | rfl | rfl | rfl <;>
    simp [signText, List.isPrefixOf, hnot 'n' rfl, hnot 't' rfl, hnot 'f' rfl, hnot 'N' rfl,
      hnot 'I' rfl, hnot '-' rfl] at hbegins

/-- What no structure and no text begins with. -/
theorem scanValue_plain {c : Char} {t : Str} (fuel : ℕ)
    (hc : c ≠ '"' ∧ c ≠ '[' ∧ c ≠ '\x7b') :
    scanValue float (fuel + 1) (c :: t) =
      (scanConstant (c :: t)).or (scanNumber float (c :: t)) := by
  obtain ⟨hquote, hlist, hdict⟩ := hc
  rw [scanValue]
  · exact fun _ h => hquote (List.cons.inj h).1
  · exact fun _ h => hlist (List.cons.inj h).1
  · exact fun _ h => hdict (List.cons.inj h).1

theorem scanValue_number {value : Json} {t rest : Str} (h : NumberText float value t)
    (hrest : Stops rest) (fuel : ℕ) :
    scanValue float (fuel + 1) (t ++ rest) = some (value, rest) := by
  have hread : (scanConstant (t ++ rest)).or (scanNumber float (t ++ rest)) =
      some (value, rest) := by
    rw [scanConstant_of_numberText h, Option.none_or, scanNumber_of_numberText h hrest]
  obtain ⟨negative, d, digits, rfl, hd⟩ := h.head
  cases negative with
  | true => exact (scanValue_plain fuel (by decide)).trans hread
  | false =>
    refine (scanValue_plain fuel ⟨?_, ?_, ?_⟩).trans hread <;> rintro rfl <;> cases hd

theorem scanConstant_of_mem {word : Str} {value : Json} (h : (word, value) ∈ constants)
    (rest : Str) : scanConstant (word ++ rest) = some (value, rest) := by
  simp only [constants, List.mem_cons, Prod.mk.injEq, List.not_mem_nil, or_false] at h
  rcases h with ⟨rfl, rfl⟩ | ⟨rfl, rfl⟩ | ⟨rfl, rfl⟩ | ⟨rfl, rfl⟩ | ⟨rfl, rfl⟩ | ⟨rfl, rfl⟩ <;> rfl

theorem scanValue_constant {word : Str} {value : Json} (h : (word, value) ∈ constants)
    (rest : Str) (fuel : ℕ) :
    scanValue float (fuel + 1) (word ++ rest) = some (value, rest) := by
  have hread : (scanConstant (word ++ rest)).or (scanNumber float (word ++ rest)) =
      some (value, rest) := by
    rw [scanConstant_of_mem h, Option.some_or]
  simp only [constants, List.mem_cons, Prod.mk.injEq, List.not_mem_nil, or_false] at h
  rcases h with ⟨rfl, -⟩ | ⟨rfl, -⟩ | ⟨rfl, -⟩ | ⟨rfl, -⟩ | ⟨rfl, -⟩ | ⟨rfl, -⟩ <;>
    exact (scanValue_plain fuel (by decide)).trans hread

/-- What a value can begin with: nothing that ends a structure. -/
def begins (c : Char) : Bool := !isSpace c && c ≠ ']' && c ≠ '\x7d'

theorem begins_of_isDigit {c : Char} (h : isDigit c = true) : begins c = true := by
  have hnot : ∀ c' : Char, isDigit c' = false → c ≠ c' := by
    rintro c' hc' rfl
    rw [h] at hc'
    cases hc'
  simp [begins, isSpace, hnot ' ' rfl, hnot '\t' rfl, hnot '\n' rfl, hnot '\r' rfl, hnot ']' rfl,
    hnot '\x7d' rfl]

theorem Renders.head {value : Json} {t : Str} (h : Renders float value t) :
    ∃ c t', t = c :: t' ∧ begins c = true := by
  cases h with
  | constant h =>
    simp only [constants, List.mem_cons, Prod.mk.injEq, List.not_mem_nil, or_false] at h
    rcases h with ⟨rfl, -⟩ | ⟨rfl, -⟩ | ⟨rfl, -⟩ | ⟨rfl, -⟩ | ⟨rfl, -⟩ | ⟨rfl, -⟩ <;>
      exact ⟨_, _, rfl, rfl⟩
  | number h =>
    obtain ⟨negative, d, digits, rfl, hd⟩ := h.head
    cases negative with
    | true => exact ⟨_, _, rfl, rfl⟩
    | false => exact ⟨_, _, rfl, begins_of_isDigit hd⟩
  | string _ | emptyList _ | list _ _ | emptyDict _ | dict _ _ => exact ⟨_, _, rfl, rfl⟩

theorem RendersItems.head {items : List Json} {t : Str} (h : RendersItems float items t) :
    ∃ c t', t = c :: t' ∧ begins c = true := by
  cases h with
  | last h _ | cons h _ _ _ =>
    obtain ⟨c, t', rfl, hc⟩ := h.head
    exact ⟨c, _, rfl, hc⟩

theorem RendersFields.head {pairs : List (Str × Json)} {t : Str} (h : RendersFields float pairs t) :
    ∃ t', t = '"' :: t' := by
  cases h with
  | last _ _ _ _ _ | cons _ _ _ _ _ _ _ => exact ⟨_, rfl⟩

theorem stops_of_isSpace {c : Char} (h : isSpace c = true) :
    isDigit c = false ∧ c ≠ '.' ∧ c ≠ 'e' ∧ c ≠ 'E' := by
  simp only [isSpace, Bool.or_eq_true, decide_eq_true_eq] at h
  rcases h with ((rfl | rfl) | rfl) | rfl <;> decide

theorem stops_of_space {w : Str} (hw : Space w) : Stops w :=
  fun c hc => stops_of_isSpace (hw c (List.mem_of_mem_head? hc))

/-- Whitespace, and what ends an item of a structure. -/
theorem stops_append_cons {w : Str} {c : Char} (rest : Str) (hw : Space w)
    (hc : isDigit c = false ∧ c ≠ '.' ∧ c ≠ 'e' ∧ c ≠ 'E') : Stops (w ++ c :: rest) := by
  intro c' hc'
  cases w with
  | nil =>
    obtain rfl := Option.some.inj hc'
    exact hc
  | cons d w => exact stops_of_space hw c' hc'

theorem noSpace_of_begins {c : Char} {text : Str} (hc : begins c = true) :
    NoSpace (c :: text) := by
  intro c' hc'
  obtain rfl := Option.some.inj hc'
  simp only [begins, Bool.and_eq_true, Bool.not_eq_true'] at hc
  exact hc.1.1

/-! ### One call of a reader -/

section Steps

variable {fuel : ℕ} {text text' rest w w' : Str}

theorem scanValue_string {s t : Str} (h : StringText s t) (fuel : ℕ) (rest : Str) :
    scanValue float (fuel + 1) ('"' :: (t ++ '"' :: rest)) = some (.str s, rest) := by
  rw [scanValue, scanString_length h, Option.map_some]

theorem scanValue_emptyList (fuel : ℕ) (rest : Str) (hw : Space w) :
    scanValue float (fuel + 1) ('[' :: (w ++ ']' :: rest)) = some (.list [], rest) := by
  rw [scanValue, skipSpace_append_cons rest hw rfl]
  rfl

theorem scanValue_list {items : List Json} (hw : Space w)
    (hhead : ∃ c t, text = c :: t ∧ begins c = true)
    (h : scanItems float fuel text = some (items, rest)) :
    scanValue float (fuel + 1) ('[' :: (w ++ text)) = some (.list items, rest) := by
  obtain ⟨c, t, rfl, hc⟩ := hhead
  have hend : (c :: t).head? ≠ some ']' := by
    intro heq
    rw [Option.some.inj heq] at hc
    cases hc
  rw [scanValue, skipSpace_append hw (noSpace_of_begins hc), if_neg hend, h, Option.map_some]

theorem scanValue_emptyDict (fuel : ℕ) (rest : Str) (hw : Space w) :
    scanValue float (fuel + 1) ('\x7b' :: (w ++ '\x7d' :: rest)) = some (.dict [], rest) := by
  rw [scanValue, skipSpace_append_cons rest hw rfl]
  rfl

theorem scanValue_dict {pairs : List (Str × Json)} (hw : Space w) (hhead : ∃ t, text = '"' :: t)
    (h : scanFields float fuel text = some (pairs, rest)) :
    scanValue float (fuel + 1) ('\x7b' :: (w ++ text)) = some (.dict (dictOf pairs), rest) := by
  obtain ⟨t, rfl⟩ := hhead
  rw [scanValue, skipSpace_append_cons t hw rfl, if_neg (by simp), h, Option.map_some]

theorem scanItems_last {item : Json} (hw : Space w)
    (h : scanValue float fuel text = some (item, w ++ ']' :: rest)) :
    scanItems float (fuel + 1) text = some ([item], rest) := by
  rw [scanItems, h, Option.bind_some]
  dsimp only
  rw [skipSpace_append_cons rest hw rfl, List.head?_cons, if_pos rfl, List.tail_cons]

theorem scanItems_cons {item : Json} {items : List Json} (hw : Space w) (hw' : Space w')
    (h : scanValue float fuel text = some (item, w ++ ',' :: (w' ++ text')))
    (hhead : NoSpace text') (hitems : scanItems float fuel text' = some (items, rest)) :
    scanItems float (fuel + 1) text = some (item :: items, rest) := by
  rw [scanItems, h, Option.bind_some]
  dsimp only
  rw [skipSpace_append_cons _ hw rfl, List.head?_cons, if_neg (by decide), if_pos rfl,
    List.tail_cons, skipSpace_append hw' hhead, hitems, Option.map_some]

variable {key k w₁ w₂ : Str} {value : Json}

theorem scanFields_last (hkey : StringText key k) (hw₁ : Space w₁) (hw₂ : Space w₂)
    (hhead : NoSpace text) (hw : Space w)
    (h : scanValue float fuel text = some (value, w ++ '\x7d' :: rest)) :
    scanFields float (fuel + 1) ('"' :: (k ++ '"' :: (w₁ ++ ':' :: (w₂ ++ text)))) =
      some ([(key, value)], rest) := by
  rw [scanFields, List.head?_cons, if_neg (by simp), List.tail_cons, scanString_length hkey,
    Option.bind_some]
  dsimp only
  rw [skipSpace_append_cons _ hw₁ rfl, List.head?_cons, if_neg (by simp), List.tail_cons,
    skipSpace_append hw₂ hhead, h, Option.bind_some]
  dsimp only
  rw [skipSpace_append_cons _ hw rfl, List.head?_cons, if_pos rfl, List.tail_cons]

theorem scanFields_cons {pairs : List (Str × Json)} (hkey : StringText key k) (hw₁ : Space w₁)
    (hw₂ : Space w₂) (hhead : NoSpace text) (hw : Space w) (hw' : Space w')
    (h : scanValue float fuel text = some (value, w ++ ',' :: (w' ++ text')))
    (hhead' : NoSpace text') (hpairs : scanFields float fuel text' = some (pairs, rest)) :
    scanFields float (fuel + 1) ('"' :: (k ++ '"' :: (w₁ ++ ':' :: (w₂ ++ text)))) =
      some ((key, value) :: pairs, rest) := by
  rw [scanFields, List.head?_cons, if_neg (by simp), List.tail_cons, scanString_length hkey,
    Option.bind_some]
  dsimp only
  rw [skipSpace_append_cons _ hw₁ rfl, List.head?_cons, if_neg (by simp), List.tail_cons,
    skipSpace_append hw₂ hhead, h, Option.bind_some]
  dsimp only
  rw [skipSpace_append_cons _ hw rfl, List.head?_cons, if_neg (by decide), if_pos rfl,
    List.tail_cons, skipSpace_append hw' hhead', hpairs, Option.map_some]

end Steps

/-! ### Values of any depth -/

theorem Renders.noSpace {value : Json} {t : Str} (h : Renders float value t) (rest : Str) :
    NoSpace (t ++ rest) := by
  obtain ⟨c, t', rfl, hc⟩ := h.head
  exact noSpace_of_begins hc

theorem RendersItems.noSpace {items : List Json} {t : Str} (h : RendersItems float items t)
    (rest : Str) : NoSpace (t ++ rest) := by
  obtain ⟨c, t', rfl, hc⟩ := h.head
  exact noSpace_of_begins hc

theorem RendersFields.noSpace {pairs : List (Str × Json)} {t : Str}
    (h : RendersFields float pairs t) (rest : Str) : NoSpace (t ++ rest) := by
  obtain ⟨t', rfl⟩ := h.head
  exact noSpace_of_begins (c := '"') rfl

mutual

/-- A value is read from its text. -/
theorem scanValue_of_renders {value : Json} {t : Str} (h : Renders float value t) {rest : Str}
    (hrest : Stops rest) {fuel : ℕ} (hfuel : t.length ≤ fuel) :
    scanValue float fuel (t ++ rest) = some (value, rest) := by
  -- each nested call has read a character, so that its text is shorter by one at least
  cases fuel with
  | zero =>
    obtain ⟨c, t', rfl, -⟩ := h.head
    cases hfuel
  | succ fuel =>
    match h with
    | .constant hword => exact scanValue_constant hword rest fuel
    | .number hnumber => exact scanValue_number hnumber hrest fuel
    | .string hs =>
      rw [List.cons_append, List.append_assoc]
      exact scanValue_string hs fuel rest
    | .emptyList hw =>
      rw [List.cons_append, List.append_assoc]
      exact scanValue_emptyList fuel rest hw
    | .list (t := text) hw hitems =>
      obtain ⟨c, t', htext, hc⟩ := hitems.head
      rw [List.length_cons, List.length_append] at hfuel
      rw [List.cons_append, List.append_assoc]
      exact scanValue_list hw ⟨c, t' ++ rest, by rw [htext, List.cons_append], hc⟩
        (scanItems_of_renders hitems rest (by omega))
    | .emptyDict hw =>
      rw [List.cons_append, List.append_assoc]
      exact scanValue_emptyDict fuel rest hw
    | .dict (t := text) hw hpairs =>
      obtain ⟨t', htext⟩ := hpairs.head
      rw [List.length_cons, List.length_append] at hfuel
      rw [List.cons_append, List.append_assoc]
      exact scanValue_dict hw ⟨t' ++ rest, by rw [htext, List.cons_append]⟩
        (scanFields_of_renders hpairs rest (by omega))

theorem scanItems_of_renders {items : List Json} {t : Str} (h : RendersItems float items t)
    (rest : Str) {fuel : ℕ} (hfuel : t.length ≤ fuel) :
    scanItems float fuel (t ++ rest) = some (items, rest) := by
  cases fuel with
  | zero =>
    obtain ⟨c, t', rfl, -⟩ := h.head
    cases hfuel
  | succ fuel =>
    match h with
    | .last hitem hw =>
      simp only [List.length_append, List.length_cons, List.length_nil] at hfuel
      rw [List.append_assoc, List.append_assoc]
      exact scanItems_last hw
        (scanValue_of_renders hitem (stops_append_cons rest hw (by decide)) (by omega))
    | .cons hitem hw hw' hitems =>
      simp only [List.length_append, List.length_cons] at hfuel
      rw [List.append_assoc, List.append_assoc, List.cons_append, List.append_assoc]
      exact scanItems_cons hw hw'
        (scanValue_of_renders hitem (stops_append_cons _ hw (by decide)) (by omega))
        (hitems.noSpace rest) (scanItems_of_renders hitems rest (by omega))

theorem scanFields_of_renders {pairs : List (Str × Json)} {t : Str}
    (h : RendersFields float pairs t) (rest : Str) {fuel : ℕ} (hfuel : t.length ≤ fuel) :
    scanFields float fuel (t ++ rest) = some (pairs, rest) := by
  cases fuel with
  | zero =>
    obtain ⟨t', rfl⟩ := h.head
    cases hfuel
  | succ fuel =>
    match h with
    | .last hkey hw₁ hw₂ hvalue hw₃ =>
      simp only [List.length_append, List.length_cons, List.length_nil] at hfuel
      simp only [List.cons_append, List.append_assoc]
      exact scanFields_last hkey hw₁ hw₂ (hvalue.noSpace _) hw₃
        (scanValue_of_renders hvalue (stops_append_cons rest hw₃ (by decide)) (by omega))
    | .cons hkey hw₁ hw₂ hvalue hw₃ hw₄ hpairs =>
      simp only [List.length_append, List.length_cons] at hfuel
      simp only [List.cons_append, List.append_assoc]
      exact scanFields_cons hkey hw₁ hw₂ (hvalue.noSpace _) hw₃ hw₄
        (scanValue_of_renders hvalue (stops_append_cons _ hw₃ (by decide)) (by omega))
        (hpairs.noSpace rest) (scanFields_of_renders hpairs rest (by omega))

end

/-- **Every JSON text is read.** -/
theorem loads_of_textOf (message : Str → Str) {value : Json} {text : Str}
    (h : TextOf float value text) : loads float message text = .ok value := by
  obtain ⟨w, t, w', rfl, hw, h, hw'⟩ := h
  unfold loads
  rw [skipSpace_append hw (h.noSpace w'),
    scanValue_of_renders h (stops_of_space hw') (by simp only [List.length_append]; omega)]
  dsimp only
  rw [skipSpace_of_space hw', if_pos rfl]

end Values

end MarketplacePipeline.JsonGrammar
