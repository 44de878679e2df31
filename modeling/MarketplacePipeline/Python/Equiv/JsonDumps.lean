import MarketplacePipeline.Python.Equiv.JsonLoads

/-!
# `json.dumps` and `json.loads`

What `dumps` writes is a JSON text of its value (`textOf_dumps`), so `loads` gives the value back,
in every layout (`loads_dumps`).  On one line, the text has no control character
(`printable_dumpValue`).
-/

namespace MarketplacePipeline.JsonGrammar

open JsonDumps JsonLoads

/-! ### Texts -/

theorem hexValue_hexDigit : ∀ n < 16, hexValue (hexDigit n) = some n := by decide

theorem charText_escapeChar (c : Char) : CharText c (escapeChar c) := by
  unfold escapeChar
  split_ifs with hquote hescape hnewline hreturn htab hfeed hback hcontrol
  · exact .short (by rw [hquote]; rfl)
  · exact .short (by rw [hescape]; rfl)
  · exact .short (by rw [hnewline]; rfl)
  · exact .short (by rw [hreturn]; rfl)
  · exact .short (by rw [htab]; rfl)
  · exact .short (by rw [hfeed]; rfl)
  · exact .short (by rw [hback]; rfl)
  · have hunit := CharText.unit (a := '0') (b := '0') (c := hexDigit (c.toNat / 16))
      (d := hexDigit (c.toNat % 16)) (n := c.toNat) ?_ (.inl (by omega))
    · rwa [Char.ofNat_toNat] at hunit
    · unfold scanHex
      rw [hexValue_hexDigit _ (by omega), hexValue_hexDigit _ (by omega)]
      show some (4096 * 0 + 256 * 0 + 16 * (c.toNat / 16) + c.toNat % 16) = _
      congr 1
      omega
  · exact .plain hquote hescape (by omega)

theorem stringText_flatMap (s : Str) : StringText s (s.flatMap escapeChar) := by
  induction s with
  | nil => exact .nil
  | cons c s ih =>
    rw [List.flatMap_cons]
    exact .cons (charText_escapeChar c) ih

/-! ### Numbers -/

theorem isDigit_toDigits {n : ℕ} {c : Char} (h : c ∈ Nat.toDigits 10 n) : isDigit c = true := by
  have hdigit := Nat.isDigit_of_mem_toDigits (by decide) (by decide) h
  simp only [Char.isDigit, ge_iff_le, Bool.and_eq_true, decide_eq_true_eq] at hdigit
  simp only [isDigit, Bool.and_eq_true, decide_eq_true_eq]
  exact hdigit

theorem digitChar_ne_zero : ∀ n < 10, n ≠ 0 → Nat.digitChar n ≠ '0' := by decide

theorem head?_toDigits {n : ℕ} (hn : n ≠ 0) : (Nat.toDigits 10 n).head? ≠ some '0' := by
  induction n using Nat.strong_induction_on with
  | _ n ih =>
    by_cases hlt : n < 10
    · rw [Nat.toDigits_of_lt_base hlt]
      exact fun h => digitChar_ne_zero n hlt hn (Option.some.inj h)
    · rw [Nat.toDigits_of_base_le (by decide) (by omega),
        List.head?_append_of_ne_nil _ Nat.toDigits_ne_nil]
      exact ih (n / 10) (by omega) (by omega)

theorem whole_toDigits (n : ℕ) : Whole (Nat.toDigits 10 n) := by
  by_cases hn : n = 0
  · exact .inl (by rw [hn]; rfl)
  · exact .inr ⟨⟨Nat.toDigits_ne_nil, fun _ => isDigit_toDigits⟩, head?_toDigits hn⟩

variable {float : Str → Str}

theorem numberText_intText {n : ℤ} (h : (Nat.toDigits 10 n.natAbs).length ≤ 4300) :
    NumberText float (.int n) (intText n) := by
  have hnumber := fun negative =>
    (NumberText.int negative (whole_toDigits n.natAbs) h : NumberText float _ _)
  rw [Nat.ofDigitChars_ten_toDigits] at hnumber
  unfold intText
  split_ifs with hn
  · have hneg := hnumber true
    rw [if_pos rfl, ← Int.eq_neg_natAbs_of_nonpos (by omega)] at hneg
    exact hneg
  · have hpos := hnumber false
    rw [if_neg (by simp), Int.natAbs_of_nonneg (by omega)] at hpos
    exact hpos

/-- The `repr` of a finite float is the text that is written. -/
theorem floatText_of_numberText {repr : Str} (h : NumberText float (.float repr) repr) :
    floatText repr = repr := by
  obtain ⟨negative, d, digits, rfl, hd⟩ := h.head
  have hnot : ∀ c : Char, isDigit c = false → d ≠ c := by
    rintro c hc rfl
    rw [hd] at hc
    cases hc
  unfold floatText
  cases negative <;> simp [signText, hnot 'n' rfl, hnot 'i' rfl, hnot '-' rfl]

/-! ### Values -/

theorem dictOf_of_nodup {fields : List (Str × Json)} (h : (fields.map Prod.fst).Nodup) :
    dictOf fields = fields := by
  unfold dictOf
  -- the dictionary holds the fields before, none of which has the next key
  have hfold : ∀ (before : List (Str × Json)), ((before ++ fields).map Prod.fst).Nodup →
      fields.foldl setItem before = before ++ fields := by
    clear h
    induction fields with
    | nil => simp
    | cons field fields ih =>
      intro before h
      have hnew : ¬ (before.any fun f => f.1 = field.1) = true := by
        intro hany
        obtain ⟨f, hf, heq⟩ := List.any_eq_true.mp hany
        rw [List.map_append, List.map_cons] at h
        exact (List.nodup_append.mp h).2.2 _ (List.mem_map_of_mem hf) _ List.mem_cons_self
          (of_decide_eq_true heq)
      rw [List.foldl_cons, setItem, if_neg hnew, ih _ (by simpa using h), List.append_assoc,
        List.singleton_append]
  simpa using hfold [] (by simpa using h)

section Layouts

variable (layout : Layout)

theorem rendersItems_dump (depth : ℕ) {item : Json} {items : List Json}
    (h : ∀ item' ∈ item :: items, Renders float item' (dumpValue layout (depth + 1) item')) :
    RendersItems float (item :: items)
      (dumpValue layout (depth + 1) item ++ dumpItems layout depth items) := by
  induction items generalizing item with
  | nil => exact .last (h item List.mem_cons_self) (layout.space_beforeEnd depth)
  | cons next items ih =>
    have hrest := ih fun item' hitem => h item' (List.mem_cons_of_mem item hitem)
    have hitems := RendersItems.cons (h item List.mem_cons_self) space_nil
      (layout.space_beforeItem false (depth + 1)) hrest
    rw [dumpItems, List.append_assoc]
    exact hitems

theorem rendersFields_dump (depth : ℕ) {field : Str × Json} {fields : List (Str × Json)}
    (h : ∀ field' ∈ field :: fields,
      Renders float field'.2 (dumpValue layout (depth + 1) field'.2)) :
    RendersFields float (field :: fields)
      (encodeString field.1 ++ ':' :: layout.afterColon ++
        dumpValue layout (depth + 1) field.2 ++ dumpFields layout depth fields) := by
  induction fields generalizing field with
  | nil =>
    have hlast := RendersFields.last (stringText_flatMap field.1) space_nil
      layout.space_afterColon (h field List.mem_cons_self) (layout.space_beforeEnd depth)
    simpa [dumpFields, encodeString] using hlast
  | cons next fields ih =>
    have hrest := ih fun field' hfield => h field' (List.mem_cons_of_mem field hfield)
    have hfields := RendersFields.cons (stringText_flatMap field.1) space_nil
      layout.space_afterColon (h field List.mem_cons_self) space_nil
      (layout.space_beforeItem false (depth + 1)) hrest
    obtain ⟨key, value⟩ := next
    simpa [dumpFields, encodeString] using hfields

/-- **`dumps` writes JSON texts.** -/
theorem renders_dumpValue {value : Json} (h : WellFormed float value) (depth : ℕ) :
    Renders float value (dumpValue layout depth value) := by
  -- on the value, for every depth of the indentation
  induction h generalizing depth with
  | null => exact .constant (by simp [constants, dumpValue])
  | bool b => cases b <;> exact .constant (by simp [constants, dumpValue])
  | int h =>
    rw [dumpValue]
    exact .number (numberText_intText h)
  | notNumber h =>
    simp only [List.mem_cons, List.not_mem_nil, or_false] at h
    rcases h with rfl | rfl | rfl <;>
      exact .constant (by rw [dumpValue]; simp [constants, floatText])
  | float h =>
    rw [dumpValue, floatText_of_numberText h]
    exact .number h
  | str s =>
    rw [dumpValue]
    exact .string (stringText_flatMap s)
  | @list items _ ih =>
    cases items with
    | nil =>
      rw [dumpValue]
      exact .emptyList space_nil
    | cons item items =>
      rw [dumpValue, List.append_assoc]
      exact .list (layout.space_beforeItem true (depth + 1))
        (rendersItems_dump layout depth fun item' hitem => ih item' hitem (depth + 1))
  | @dict fields hkeys _ ih =>
    cases fields with
    | nil =>
      rw [dumpValue]
      exact .emptyDict space_nil
    | cons field fields =>
      have hdict := Renders.dict (layout.space_beforeItem true (depth + 1))
        (rendersFields_dump layout depth fun field' hfield =>
          ih field' hfield (depth + 1))
      rw [dictOf_of_nodup hkeys] at hdict
      obtain ⟨key, value⟩ := field
      rw [dumpValue]
      simpa using hdict

theorem textOf_dumps {value : Json} (h : WellFormed float value) :
    TextOf float value (dumps layout value) :=
  ⟨[], dumps layout value, [], by simp, space_nil, renders_dumpValue layout h 0, space_nil⟩

/-- **Round trip**: `loads` gives back what `dumps` has written. -/
theorem loads_dumps (message : Str → Str) {value : Json} (h : WellFormed float value) :
    loads float message (dumps layout value) = .ok value :=
  loads_of_textOf message (textOf_dumps layout h)

end Layouts

/-! ### Texts without control characters -/

/-- No character of the text is a control character. -/
def Printable (text : Str) : Prop := ∀ c ∈ text, 32 ≤ c.toNat

instance (text : Str) : Decidable (Printable text) :=
  List.decidableBAll (fun c : Char => 32 ≤ c.toNat) text

@[simp] theorem printable_nil : Printable [] := fun _ h => by cases h

@[simp] theorem printable_cons {c : Char} {text : Str} :
    Printable (c :: text) ↔ 32 ≤ c.toNat ∧ Printable text := List.forall_mem_cons

@[simp] theorem printable_append {a b : Str} :
    Printable (a ++ b) ↔ Printable a ∧ Printable b := List.forall_mem_append

theorem printable_escapeChar (c : Char) : Printable (escapeChar c) := by
  have hhex : ∀ n < 16, 32 ≤ (hexDigit n).toNat := by decide
  unfold escapeChar
  split_ifs with _ _ _ _ _ _ _ hcontrol
  · decide
  · decide
  · decide
  · decide
  · decide
  · decide
  · decide
  · refine printable_append.mpr ⟨by decide, ?_⟩
    simpa using ⟨hhex _ (by omega), hhex _ (by omega)⟩
  · simpa using hcontrol

theorem printable_encodeString (s : Str) : Printable (encodeString s) := by
  have hbody : Printable (s.flatMap escapeChar) := by
    intro c hc
    obtain ⟨d, -, hd⟩ := List.mem_flatMap.mp hc
    exact printable_escapeChar d c hd
  simpa [encodeString] using hbody

theorem printable_of_digits {text : Str} (h : ∀ c ∈ text, isDigit c = true) : Printable text := by
  intro c hc
  have hdigit := h c hc
  simp only [isDigit, Bool.and_eq_true, decide_eq_true_eq, Char.le_def] at hdigit
  exact le_trans (by decide) hdigit.1

theorem printable_intText (n : ℤ) : Printable (intText n) := by
  have hdigits : Printable (Nat.toDigits 10 n.natAbs) :=
    printable_of_digits fun _ => isDigit_toDigits
  unfold intText
  split_ifs
  · simpa using hdigits
  · exact hdigits

theorem printable_whole {whole : Str} (h : Whole whole) : Printable whole := by
  rcases h with rfl | ⟨⟨-, hdigits⟩, -⟩
  · decide
  · exact printable_of_digits hdigits

theorem printable_numberText {value : Json} {t : Str} (h : NumberText float value t) :
    Printable t := by
  have hsign : ∀ negative, Printable (signText negative) := by decide
  cases h with
  | int negative hwhole _ => exact printable_append.mpr ⟨hsign negative, printable_whole hwhole⟩
  | float negative hwhole hfraction hexponent _ =>
    simp only [printable_append]
    refine ⟨⟨⟨hsign negative, printable_whole hwhole⟩, ?_⟩, ?_⟩
    · rcases hfraction with rfl | ⟨digits, hdigits, rfl⟩
      · exact printable_nil
      · exact printable_cons.mpr ⟨by decide, printable_of_digits hdigits.2⟩
    · rcases hexponent with rfl | ⟨e, sign, digits, he, hsign, hdigits, rfl⟩
      · exact printable_nil
      · refine printable_cons.mpr ⟨?_, printable_append.mpr ⟨?_, printable_of_digits hdigits.2⟩⟩
        · rcases he with rfl | rfl <;> decide
        · rcases hsign with rfl | rfl | rfl <;> decide

/-- A layout without line breaks. -/
structure OnOneLine (layout : Layout) : Prop where
  beforeItem : ∀ first depth, Printable (layout.beforeItem first depth)
  beforeEnd : ∀ depth, Printable (layout.beforeEnd depth)
  afterColon : Printable layout.afterColon

theorem oneLine_onOneLine : OnOneLine .oneLine where
  beforeItem first _ := by
    show Printable (if first then [] else [' '])
    revert first
    decide
  beforeEnd _ := printable_nil
  afterColon := by decide

section Printable

variable {layout : Layout}

theorem printable_dumpItems (hlayout : OnOneLine layout) {depth : ℕ} {items : List Json}
    (h : ∀ item ∈ items, Printable (dumpValue layout (depth + 1) item)) :
    Printable (dumpItems layout depth items) := by
  induction items with
  | nil =>
    rw [dumpItems]
    exact printable_append.mpr ⟨hlayout.beforeEnd depth, by decide⟩
  | cons item items ih =>
    obtain ⟨hitem, hitems⟩ := List.forall_mem_cons.mp h
    rw [dumpItems]
    simp only [printable_cons, printable_append]
    exact ⟨by decide, ⟨hlayout.beforeItem false _, hitem⟩, ih hitems⟩

theorem printable_dumpFields (hlayout : OnOneLine layout) {depth : ℕ}
    {fields : List (Str × Json)}
    (h : ∀ field ∈ fields, Printable (dumpValue layout (depth + 1) field.2)) :
    Printable (dumpFields layout depth fields) := by
  induction fields with
  | nil =>
    rw [dumpFields]
    exact printable_append.mpr ⟨hlayout.beforeEnd depth, by decide⟩
  | cons field fields ih =>
    obtain ⟨hvalue, hfields⟩ := List.forall_mem_cons.mp h
    rw [dumpFields]
    simp only [printable_cons, printable_append]
    exact ⟨by decide, ⟨⟨⟨hlayout.beforeItem false _, printable_encodeString field.1⟩, by decide,
      hlayout.afterColon⟩, hvalue⟩, ih hfields⟩

/-- What is written on one line has no control character, whatever the texts in it. -/
theorem printable_dumpValue (hlayout : OnOneLine layout) {value : Json}
    (h : WellFormed float value) (depth : ℕ) : Printable (dumpValue layout depth value) := by
  -- the layout adds no control character, and a text escapes its own
  induction h generalizing depth with
  | null =>
    rw [dumpValue]
    decide
  | bool b => cases b <;> rw [dumpValue] <;> decide
  | int _ =>
    rw [dumpValue]
    exact printable_intText _
  | notNumber h =>
    simp only [List.mem_cons, List.not_mem_nil, or_false] at h
    rw [dumpValue]
    rcases h with rfl | rfl | rfl <;> decide
  | float h =>
    rw [dumpValue, floatText_of_numberText h]
    exact printable_numberText h
  | str s =>
    rw [dumpValue]
    exact printable_encodeString s
  | @list items _ ih =>
    cases items with
    | nil =>
      rw [dumpValue]
      decide
    | cons item items =>
      obtain ⟨hitem, hitems⟩ := List.forall_mem_cons.mp ih
      rw [dumpValue]
      simp only [printable_cons, printable_append]
      exact ⟨by decide, ⟨hlayout.beforeItem true _, hitem _⟩,
        printable_dumpItems hlayout fun item' hitem' => hitems item' hitem' _⟩
  | @dict fields _ _ ih =>
    cases fields with
    | nil =>
      rw [dumpValue]
      decide
    | cons field fields =>
      obtain ⟨key, value⟩ := field
      obtain ⟨hvalue, hfields⟩ := List.forall_mem_cons.mp ih
      rw [dumpValue]
      simp only [printable_cons, printable_append]
      exact ⟨by decide, ⟨⟨⟨hlayout.beforeItem true _, printable_encodeString key⟩, by decide,
        hlayout.afterColon⟩, hvalue _⟩,
        printable_dumpFields hlayout fun field' hfield' => hfields field' hfield' _⟩

end Printable

end MarketplacePipeline.JsonGrammar
