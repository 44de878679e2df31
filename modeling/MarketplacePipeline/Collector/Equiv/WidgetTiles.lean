import MarketplacePipeline.Collector.WidgetStates

/-!
# What the pattern of `_extract_from_widget` finds in product tiles

A `Tile` is rendered as a compact JSON object with a sku, which may be followed by a title and by a
price.  In a text of such tiles the pattern takes the sku of the first tile, the first title from
there on and the first price from that title on, and goes on behind the tile of that price:
`findall_render` says that it reads them as `readTiles` does.
-/

namespace MarketplacePipeline.OzonCatalogCollector

open Backtracking

/-! ### Product tiles -/

/-- A text that is not empty and has no character that JSON escapes. -/
@[ext]
structure PlainText where
  text : Str
  ne_nil : text ≠ []
  plain : ∀ c ∈ text, c ≠ '"' ∧ c ≠ '\\' ∧ 0x20 ≤ c.toNat

/-- A price text, with at least one digit. -/
structure PriceText extends PlainText where
  hasDigit : ∃ c ∈ text, Str.isDecimal c = true

/-- The digits of a price. -/
def PriceText.digits (price : PriceText) : Str := price.text.filter Str.isDecimal

/-- What the marketplace shows of one product. -/
structure Tile where
  sku : ℕ
  title : Option PlainText
  price : Option PriceText

namespace Tile

/-- `str(sku)`. -/
def skuText (tile : Tile) : Str := Nat.toDigits 10 tile.sku

/-- A tile with a title and a price. -/
def complete (tile : Tile) : Bool := tile.title.isSome && tile.price.isSome

end Tile

/-- `,"name":"value"`, where there is a value. -/
def renderField (name : Str) : Option PlainText → Str
  | some value => ',' :: (quoted name ++ ':' :: quoted value.text)
  | none => []

namespace Tile

/-- The end of a tile from its price on, and the text after the tile. -/
def fromPrice (tile : Tile) (rest : Str) : Str :=
  renderField "price".toList (tile.price.map PriceText.toPlainText) ++ '\x7d' :: rest

/-- The end of a tile from its title on, and the text after the tile. -/
def fromTitle (tile : Tile) (rest : Str) : Str :=
  renderField "title".toList tile.title ++ tile.fromPrice rest

end Tile

/-- The JSON objects of some tiles, one after the other. -/
def render : List Tile → Str
  | [] => []
  | tile :: tiles =>
    '\x7b' :: (quoted "sku".toList ++ ':' :: (tile.skuText ++ tile.fromTitle (render tiles)))

/-! ### What is read of the tiles -/

/-- The fields that one match of the pattern captures. -/
structure Found where
  sku : ℕ
  title : PlainText
  price : PriceText

/-- The groups of a match. -/
def Found.groups (found : Found) : List Str :=
  [Nat.toDigits 10 found.sku, found.title.text, found.price.text]

/-- The fields that are read of the tiles when a sku, or a sku and a title, is already read. -/
def readTiles : Option (ℕ × Option PlainText) → List Tile → List Found
  | _, [] => []
  | pending, tile :: tiles =>
    let sku := (pending.map Prod.fst).getD tile.sku
    let title := (pending.bind Prod.snd).or tile.title
    match title, tile.price with
    | some title, some price => ⟨sku, title, price⟩ :: readTiles none tiles
    | title, _ => readTiles (some (sku, title)) tiles

/-- The first price, and the tiles after it. -/
def findPrice : List Tile → Option (PriceText × List Tile)
  | [] => none
  | tile :: tiles =>
    match tile.price with
    | some price => some (price, tiles)
    | none => findPrice tiles

/-- The first title and the first price from there on, and the tiles after it. -/
def findTitle : List Tile → Option (PlainText × PriceText × List Tile)
  | [] => none
  | tile :: tiles =>
    match tile.title with
    | some title => (findPrice (tile :: tiles)).map fun found => (title, found)
    | none => findTitle tiles

theorem readTiles_title (sku : ℕ) (title : PlainText) (tiles : List Tile) :
    readTiles (some (sku, some title)) tiles =
      (findPrice tiles).elim [] fun found => ⟨sku, title, found.1⟩ :: readTiles none found.2 := by
  induction tiles with
  | nil => rfl
  | cons tile tiles ih =>
    rw [readTiles, findPrice]
    cases tile.price with
    | some price => rfl
    | none => exact ih

theorem readTiles_sku (sku : ℕ) (tiles : List Tile) :
    readTiles (some (sku, none)) tiles =
      (findTitle tiles).elim [] fun found =>
        ⟨sku, found.1, found.2.1⟩ :: readTiles none found.2.2 := by
  induction tiles with
  | nil => rfl
  | cons tile tiles ih =>
    rw [findTitle]
    cases htitle : tile.title with
    | none =>
      rw [readTiles, htitle]
      exact ih
    | some title =>
      have hread : readTiles (some (sku, none)) (tile :: tiles) =
          readTiles (some (sku, some title)) (tile :: tiles) := by
        rw [readTiles, readTiles, htitle]
        rfl
      rw [hread, readTiles_title]
      cases findPrice (tile :: tiles) <;> rfl

/-! ### Keys and values -/

variable {pattern : List (Piece Char)} {name value rest : Str} {c : Char}

theorem matchAt_keyPattern (name : Str) (hrest : ∀ c ∈ rest.head?, Str.isSpace c = false) :
    matchAt (keyPattern name ++ pattern) (quoted name ++ ':' :: rest) = matchAt pattern rest := by
  have hcolon : ∀ c ∈ (':' :: rest).head?, Str.isSpace c = false := by
    intro c hc
    cases hc
    decide
  calc matchAt (keyPattern name ++ pattern) (quoted name ++ ':' :: rest)
    _ = matchAt (.run Str.isSpace 0 false false :: .word [':'] :: .run Str.isSpace 0 false false ::
          pattern) (':' :: rest) := matchAt_word_append _ (quoted name) (':' :: rest)
    _ = matchAt (.word [':'] :: .run Str.isSpace 0 false false :: pattern) (':' :: rest) :=
        matchAt_run_of_head hcolon
    _ = matchAt (.run Str.isSpace 0 false false :: pattern) rest := matchAt_word_append _ [':'] rest
    _ = matchAt pattern rest := matchAt_run_of_head hrest

theorem PlainText.quote_not_mem (value : PlainText) : '"' ∉ value.text :=
  fun h => (value.plain _ h).1 rfl

theorem matchAt_valuePattern (value : PlainText) (pattern : List (Piece Char)) (rest : Str) :
    matchAt (valuePattern ++ pattern) (quoted value.text ++ rest) =
      (matchAt pattern rest).map (Prod.map (value.text :: ·) id) := by
  have hvalue : ∀ c ∈ value.text, (c != '"') = true := fun c hc =>
    bne_iff_ne.mpr (value.plain c hc).1
  have hquote : ∀ c ∈ ('"' :: rest).head?, (c != '"') = false := by
    intro c hc
    cases hc
    rfl
  -- there is no quote in the value, so that giving characters back finds none
  have hback : matchAt (.word ['"'] :: pattern) ('"' :: rest) = none →
      ∀ b, b <:+ value.text → matchAt (.word ['"'] :: pattern) (b ++ '"' :: rest) = none := by
    intro hnone b hb
    by_cases hempty : b = []
    · rw [hempty]
      exact hnone
    · exact absent_of_not_mem value.quote_not_mem b hb hempty
  have hquoted : quoted value.text ++ rest = ['"'] ++ (value.text ++ '"' :: rest) := by
    simp [quoted]
  calc matchAt (valuePattern ++ pattern) (quoted value.text ++ rest)
    _ = matchAt (.run (fun c => c != '"') 1 false true :: .word ['"'] :: pattern)
          (value.text ++ '"' :: rest) := by
        rw [hquoted]
        exact matchAt_word_append _ ['"'] _
    _ = (matchAt (.word ['"'] :: pattern) ('"' :: rest)).map (Prod.map (value.text :: ·) id) :=
        matchAt_run_append hvalue (List.length_pos_of_ne_nil value.ne_nil) hquote hback
    _ = (matchAt pattern rest).map (Prod.map (value.text :: ·) id) := by
        rw [← matchAt_word_append pattern ['"'] rest, List.singleton_append]

/-- A name of a field has none of the characters that JSON puts around the fields. -/
def IsName (name : Str) : Prop := name ≠ [] ∧ ∀ c ∈ ['"', ':', ',', '\x7d'], c ∉ name

/-- Between the quotes of a text, and at the second one, no key begins. -/
theorem absent_afterQuote (hname : IsName name) (hvalue : '"' ∉ value)
    (hc : c ∈ ['"', ':', ',', '\x7d']) :
    Absent (keyPattern name ++ pattern) (value ++ ['"']) (c :: rest) := by
  rw [absent_append_iff]
  refine ⟨absent_of_not_mem hvalue, ?_⟩
  rw [absent_cons_iff]
  refine ⟨matchAt_word_eq_none fun hbegins => ?_, absent_nil _ _⟩
  obtain ⟨d, name', rfl⟩ := List.exists_cons_of_ne_nil hname.1
  have hd : d = c := (List.cons_prefix_cons.mp (List.cons_prefix_cons.mp hbegins).2).1
  exact hname.2 c hc (hd ▸ List.mem_cons_self)

theorem eq_of_quoted_prefix (rest : Str) (hname : '"' ∉ name) (hvalue : '"' ∉ value)
    (h : quoted name <+: quoted value ++ rest) : name = value := by
  obtain ⟨rest', h⟩ := h
  have hcut : ∀ {text : Str} (rest : Str), '"' ∉ text →
      (text ++ '"' :: rest).takeWhile (fun c => c ≠ '"') = text := by
    intro text rest htext
    exact FirstOccurrence.takeWhile_ne_append_cons htext
  have heq : name ++ '"' :: rest' = value ++ '"' :: rest := by
    simpa [quoted] using h
  rw [← hcut rest' hname, heq, hcut rest hvalue]

/-- No key begins within another key. -/
theorem absent_key (hname : IsName name) (hvalue : '"' ∉ value) (hne : name ≠ value) :
    Absent (keyPattern name ++ pattern) (quoted value) (':' :: rest) := by
  refine absent_cons_iff.mpr ⟨matchAt_word_eq_none fun hbegins => hne ?_, ?_⟩
  · have hquote := hname.2 '"' (by simp)
    exact eq_of_quoted_prefix (':' :: rest) hquote hvalue hbegins
  · exact absent_afterQuote hname hvalue (by simp)

/-- No key begins within a value, even if the value is the text of the key. -/
theorem absent_value (hname : IsName name) (value : PlainText) (hc : c = ',' ∨ c = '\x7d') :
    Absent (keyPattern name ++ pattern) (quoted value.text) (c :: rest) := by
  have hafter : c ∈ ['"', ':', ',', '\x7d'] := by
    rcases hc with rfl | rfl <;> simp
  refine absent_cons_iff.mpr ⟨?_, absent_afterQuote hname value.quote_not_mem hafter⟩
  by_cases heq : name = value.text
  · -- a value with the text of the key is not followed by a colon
    have hspace : ∀ d ∈ (c :: rest).head?, Str.isSpace d = false := by
      intro d hd
      cases hd
      rcases hc with rfl | rfl <;> decide
    have hcolon : ¬ [':'] <+: c :: rest := by
      intro hbegins
      have hcolon := (List.cons_prefix_cons.mp hbegins).1
      rcases hc with rfl | rfl <;> exact absurd hcolon (by decide)
    calc matchAt (keyPattern name ++ pattern) (quoted value.text ++ c :: rest)
      _ = matchAt (.run Str.isSpace 0 false false :: .word [':'] ::
            .run Str.isSpace 0 false false :: pattern) (c :: rest) := by
          rw [← heq]
          exact matchAt_word_append _ (quoted name) (c :: rest)
      _ = matchAt (.word [':'] :: .run Str.isSpace 0 false false :: pattern) (c :: rest) :=
          matchAt_run_of_head hspace
      _ = none := matchAt_word_eq_none hcolon
  · refine matchAt_word_eq_none fun hbegins => heq ?_
    have hquote := hname.2 '"' (by simp)
    exact eq_of_quoted_prefix (c :: rest) hquote value.quote_not_mem hbegins

/-! ### Fields -/

/-- A text that goes on with another field or with the end of the tile. -/
def AfterField (rest : Str) : Prop := ∃ c rest', (c = ',' ∨ c = '\x7d') ∧ rest = c :: rest'

theorem renderField_append (name : Str) (value : PlainText) (rest : Str) :
    renderField name (some value) ++ rest =
      [','] ++ (quoted name ++ ':' :: (quoted value.text ++ rest)) := by
  simp [renderField]

theorem AfterField.renderField (name : Str) (value : Option PlainText) (h : AfterField rest) :
    AfterField (renderField name value ++ rest) := by
  cases value with
  | none => exact h
  | some value => exact ⟨',', _, Or.inl rfl, renderField_append name value rest⟩

theorem afterField_fromPrice (tile : Tile) (rest : Str) : AfterField (tile.fromPrice rest) :=
  AfterField.renderField _ _ ⟨'\x7d', rest, Or.inr rfl, rfl⟩

theorem afterField_fromTitle (tile : Tile) (rest : Str) : AfterField (tile.fromTitle rest) :=
  AfterField.renderField _ _ (afterField_fromPrice tile rest)

/-- A key is not found in a field of another name. -/
theorem absent_renderField {name' : Str} (hname : IsName name) (hname' : '"' ∉ name')
    (hne : name ≠ name') (value : Option PlainText) (hrest : AfterField rest) :
    Absent (keyPattern name ++ pattern) (renderField name' value) rest := by
  cases value with
  | none => exact absent_nil _ _
  | some value =>
    obtain ⟨c, rest', hc, rfl⟩ := hrest
    have hcomma : Absent (keyPattern name ++ pattern) [',']
        (quoted name' ++ ':' :: quoted value.text ++ c :: rest') := absent_of_not_mem (by decide)
    have hcolon : Absent (keyPattern name ++ pattern) [':'] (quoted value.text ++ c :: rest') :=
      absent_of_not_mem (by decide)
    have hfield : renderField name' (some value) =
        [','] ++ (quoted name' ++ ([':'] ++ quoted value.text)) := rfl
    rw [hfield, absent_append_iff, absent_append_iff, absent_append_iff]
    refine ⟨?_, absent_key hname hname' hne, hcolon, absent_value hname value hc⟩
    simpa using hcomma

/-- A gap ends at the field that the pattern asks for if the rest of the pattern matches there. -/
theorem matchAt_gap_renderField (name : Str) (value : PlainText)
    (pattern : List (Piece Char)) {found : List Str × Str} (h : matchAt pattern rest = some found) :
    matchAt (gap :: (keyPattern name ++ (valuePattern ++ pattern)))
      (renderField name (some value) ++ rest) = some (value.text :: found.1, found.2) := by
  have hquote : ∀ c ∈ (quoted value.text ++ rest).head?, Str.isSpace c = false := by
    intro c hc
    cases hc
    decide
  have hcomma : Absent (keyPattern name ++ (valuePattern ++ pattern)) [',']
      (quoted name ++ ':' :: (quoted value.text ++ rest)) := absent_of_not_mem (by decide)
  rw [renderField_append, matchAt_gap_append hcomma]
  apply matchAt_gap_of_match
  rw [matchAt_keyPattern name hquote, matchAt_valuePattern, h]
  rfl

theorem Tile.isDecimal_skuText (tile : Tile) : ∀ c ∈ tile.skuText, Str.isDecimal c = true :=
  fun _ hc => Str.isDecimal_of_isDigit (Nat.isDigit_of_mem_toDigits (by decide) (by decide) hc)

theorem quote_not_mem_of_isDecimal (h : ∀ c ∈ value, Str.isDecimal c = true) : '"' ∉ value :=
  fun hmem => absurd (h _ hmem) (by decide)

/-- The start of a tile has no other key than the sku's. -/
theorem matchAt_gap_render (hname : IsName name) (hne : name ≠ "sku".toList) (tile : Tile)
    (tiles : List Tile) : matchAt (gap :: (keyPattern name ++ pattern)) (render (tile :: tiles)) =
      matchAt (gap :: (keyPattern name ++ pattern)) (tile.fromTitle (render tiles)) := by
  have hopen : Absent (keyPattern name ++ pattern) ['\x7b'] (quoted "sku".toList ++ ':' ::
      (tile.skuText ++ tile.fromTitle (render tiles))) := absent_of_not_mem (by decide)
  have hkey : Absent (keyPattern name ++ pattern) (quoted "sku".toList)
      (':' :: (tile.skuText ++ tile.fromTitle (render tiles))) := absent_key hname (by decide) hne
  have hsku : Absent (keyPattern name ++ pattern) (':' :: tile.skuText)
      (tile.fromTitle (render tiles)) := by
    refine absent_of_not_mem fun hmem => ?_
    rcases List.mem_cons.mp hmem with heq | hmem
    · exact absurd heq (by decide)
    · exact quote_not_mem_of_isDecimal tile.isDecimal_skuText hmem
  calc matchAt (gap :: (keyPattern name ++ pattern)) (render (tile :: tiles))
    _ = matchAt (gap :: (keyPattern name ++ pattern)) (quoted "sku".toList ++ ':' ::
          (tile.skuText ++ tile.fromTitle (render tiles))) := matchAt_gap_append hopen
    _ = matchAt (gap :: (keyPattern name ++ pattern))
          (':' :: (tile.skuText ++ tile.fromTitle (render tiles))) := matchAt_gap_append hkey
    _ = matchAt (gap :: (keyPattern name ++ pattern)) (tile.fromTitle (render tiles)) :=
        matchAt_gap_append hsku

/-! ### The price, the title and the sku -/

theorem isName_of_isAlpha (hne : name ≠ []) (h : name.all Char.isAlpha = true) : IsName name := by
  refine ⟨hne, fun c hc hmem => ?_⟩
  have halpha : c.isAlpha = true := List.all_eq_true.mp h c hmem
  simp only [List.mem_cons, List.not_mem_nil, or_false] at hc
  rcases hc with rfl | rfl | rfl | rfl <;> exact absurd halpha (by decide)

theorem isName_price : IsName "price".toList := isName_of_isAlpha (by decide) (by decide)

theorem isName_title : IsName "title".toList := isName_of_isAlpha (by decide) (by decide)

theorem matchAt_gap_word_nil {d : Char} {w : Str} :
    matchAt (gap :: .word (d :: w) :: pattern) [] = none := by
  rw [matchAt_gap_nil]
  exact matchAt_word_eq_none (by simp)

/-- The search for a price passes over a title. -/
theorem matchAt_gap_price_fromTitle (tile : Tile) (rest : Str) :
    matchAt (gap :: pricePattern) (tile.fromTitle rest) =
      matchAt (gap :: pricePattern) (tile.fromPrice rest) := by
  have htitle : Absent pricePattern (renderField "title".toList tile.title)
      (tile.fromPrice rest) :=
    absent_renderField isName_price (by decide) (by decide) _ (afterField_fromPrice _ _)
  exact matchAt_gap_append htitle

/-- The search for a price goes on with the next tile if this one has none. -/
theorem matchAt_gap_fromPrice_of_none {tile : Tile} (hprice : tile.price = none) (rest : Str) :
    matchAt (gap :: pricePattern) (tile.fromPrice rest) = matchAt (gap :: pricePattern) rest := by
  have hclose : Absent pricePattern ['\x7d'] rest := absent_of_not_mem (by decide)
  rw [Tile.fromPrice, hprice]
  exact matchAt_gap_append hclose

/-- The search for a price, within a tile. -/
theorem matchAt_gap_fromPrice (tile : Tile) (tiles : List Tile) :
    matchAt (gap :: pricePattern) (tile.fromPrice (render tiles)) =
      (findPrice (tile :: tiles)).map fun found =>
        ([found.1.text], '\x7d' :: render found.2) := by
  induction tiles generalizing tile with
  | nil =>
    rw [findPrice]
    cases hprice : tile.price with
    | some price =>
      rw [Tile.fromPrice, hprice]
      exact matchAt_gap_renderField "price".toList price.toPlainText [] rfl
    | none => exact (matchAt_gap_fromPrice_of_none hprice []).trans matchAt_gap_word_nil
  | cons tile' tiles ih =>
    rw [findPrice]
    cases hprice : tile.price with
    | some price =>
      rw [Tile.fromPrice, hprice]
      exact matchAt_gap_renderField "price".toList price.toPlainText [] rfl
    | none =>
      calc matchAt (gap :: pricePattern) (tile.fromPrice (render (tile' :: tiles)))
        _ = matchAt (gap :: pricePattern) (render (tile' :: tiles)) :=
            matchAt_gap_fromPrice_of_none hprice _
        _ = matchAt (gap :: pricePattern) (tile'.fromTitle (render tiles)) :=
            matchAt_gap_render isName_price (by decide) tile' tiles
        _ = matchAt (gap :: pricePattern) (tile'.fromPrice (render tiles)) :=
            matchAt_gap_price_fromTitle tile' _
        _ = _ := ih tile'

/-- The search for a title in a tile that has one: it is taken if there is a price after it. -/
theorem matchAt_gap_fromTitle_of_title {tile : Tile} {title : PlainText}
    (htitle : tile.title = some title) (tiles : List Tile) :
    matchAt (gap :: titlePattern) (tile.fromTitle (render tiles)) =
      (findTitle (tile :: tiles)).map fun found =>
        ([found.1.text, found.2.1.text], '\x7d' :: render found.2.2) := by
  have hprice := matchAt_gap_fromPrice tile tiles
  have hfind : findTitle (tile :: tiles) =
      (findPrice (tile :: tiles)).map fun found => (title, found) := by
    rw [findTitle, htitle]
  rw [hfind]
  cases hfound : findPrice (tile :: tiles) with
  | some found =>
    rw [hfound, Option.map_some] at hprice
    rw [Tile.fromTitle, htitle]
    exact matchAt_gap_renderField "title".toList title (gap :: pricePattern) hprice
  | none =>
    -- the gap before the title may grow, but there is no price after any later title either
    rw [hfound, Option.map_none, ← matchAt_gap_price_fromTitle] at hprice
    exact matchAt_gap_eq_none (keyPattern "title".toList ++ valuePattern) hprice

/-- The search for a title goes on with the next tile if this one has none. -/
theorem matchAt_gap_fromTitle_of_none {tile : Tile} (htitle : tile.title = none) (rest : Str) :
    matchAt (gap :: titlePattern) (tile.fromTitle rest) =
      matchAt (gap :: titlePattern) rest := by
  have hprice : Absent titlePattern
      (renderField "price".toList (tile.price.map PriceText.toPlainText)) ('\x7d' :: rest) :=
    absent_renderField isName_title (by decide) (by decide) _ ⟨'\x7d', rest, Or.inr rfl, rfl⟩
  have hclose : Absent titlePattern ['\x7d'] rest := absent_of_not_mem (by decide)
  calc matchAt (gap :: titlePattern) (tile.fromTitle rest)
    _ = matchAt (gap :: titlePattern) (tile.fromPrice rest) := by
        rw [Tile.fromTitle, htitle]
        rfl
    _ = matchAt (gap :: titlePattern) ('\x7d' :: rest) := matchAt_gap_append hprice
    _ = matchAt (gap :: titlePattern) rest := matchAt_gap_append hclose

/-- The search for a title, within a tile. -/
theorem matchAt_gap_fromTitle (tile : Tile) (tiles : List Tile) :
    matchAt (gap :: titlePattern) (tile.fromTitle (render tiles)) =
      (findTitle (tile :: tiles)).map fun found =>
        ([found.1.text, found.2.1.text], '\x7d' :: render found.2.2) := by
  induction tiles generalizing tile with
  | nil =>
    cases htitle : tile.title with
    | some title => exact matchAt_gap_fromTitle_of_title htitle []
    | none =>
      rw [matchAt_gap_fromTitle_of_none htitle, findTitle, htitle]
      exact matchAt_gap_word_nil
  | cons tile' tiles ih =>
    cases htitle : tile.title with
    | some title => exact matchAt_gap_fromTitle_of_title htitle (tile' :: tiles)
    | none =>
      rw [matchAt_gap_fromTitle_of_none htitle, findTitle, htitle]
      exact (matchAt_gap_render isName_title (by decide) tile' tiles).trans (ih tile')

theorem Tile.isSpace_skuText (tile : Tile) (rest : Str) :
    ∀ c ∈ (tile.skuText ++ rest).head?, Str.isSpace c = false := by
  intro c hc
  have hmem : c ∈ Nat.toDigits 10 tile.sku := by
    obtain ⟨d, digits, hsku⟩ := List.exists_cons_of_ne_nil
      (Nat.toDigits_ne_nil : Nat.toDigits 10 tile.sku ≠ [])
    rw [skuText, hsku] at hc
    rw [hsku, Option.some.inj hc]
    exact List.mem_cons_self
  exact Str.isSpace_of_isDigit (Nat.isDigit_of_mem_toDigits (by decide) (by decide) hmem)

/-- A match that begins at a tile has the sku of that tile. -/
theorem matchAt_skuPattern (tile : Tile) (rest : Str) :
    matchAt skuPattern (quoted "sku".toList ++ ':' :: (tile.skuText ++ tile.fromTitle rest)) =
      (matchAt (gap :: titlePattern) (tile.fromTitle rest)).map
        (Prod.map (tile.skuText :: ·) id) := by
  have hafter : ∀ c ∈ (tile.fromTitle rest).head?, Str.isDecimal c = false := by
    obtain ⟨c, rest', hc, heq⟩ := afterField_fromTitle tile rest
    rw [heq]
    intro d hd
    cases hd
    rcases hc with rfl | rfl <;> decide
  -- giving digits back to the gap does not help, as no key begins with a digit
  have hback : matchAt (gap :: titlePattern) (tile.fromTitle rest) = none → ∀ b,
      b <:+ tile.skuText → matchAt (gap :: titlePattern) (b ++ tile.fromTitle rest) = none := by
    intro hnone b hb
    have hdigits : Absent titlePattern b (tile.fromTitle rest) := absent_of_not_mem
      (quote_not_mem_of_isDecimal fun c hc => tile.isDecimal_skuText c (hb.subset hc))
    rw [matchAt_gap_append hdigits, hnone]
  calc matchAt skuPattern (quoted "sku".toList ++ ':' :: (tile.skuText ++ tile.fromTitle rest))
    _ = matchAt (.run Str.isDecimal 1 false true :: gap :: titlePattern)
          (tile.skuText ++ tile.fromTitle rest) :=
        matchAt_keyPattern "sku".toList (tile.isSpace_skuText _)
    _ = _ := matchAt_run_append tile.isDecimal_skuText
        (List.length_pos_of_ne_nil Nat.toDigits_ne_nil) hafter hback

/-- The first match in a text of tiles. -/
theorem findall_render_cons (tile : Tile) (tiles : List Tile) :
    findall skuPattern (render (tile :: tiles)) =
      (findTitle (tile :: tiles)).elim [] fun found =>
        [tile.skuText, found.1.text, found.2.1.text] :: findall skuPattern (render found.2.2) := by
  have hfields := matchAt_gap_fromTitle tile tiles
  cases hfound : findTitle (tile :: tiles) with
  | none =>
    -- without a title and a price no other match begins later on
    have hnone : matchAt (gap :: titlePattern) (render (tile :: tiles)) = none := by
      rw [hfound] at hfields
      exact (matchAt_gap_render isName_title (by decide) tile tiles).trans hfields
    have hsku : matchAt (gap :: skuPattern) (render (tile :: tiles)) = none :=
      matchAt_gap_eq_none (keyPattern "sku".toList ++ [Piece.run Str.isDecimal 1 false true])
        hnone
    exact findall_of_matchAt_gap hsku
  | some found =>
    have hmatch := matchAt_skuPattern tile (render tiles)
    rw [hfields, hfound, Option.map_some, Option.map_some] at hmatch
    have hopen : Absent skuPattern ['\x7b'] (quoted "sku".toList ++ ':' ::
      (tile.skuText ++ tile.fromTitle (render tiles))) := absent_of_not_mem (by decide)
    have hclose : Absent skuPattern ['\x7d'] (render found.2.2) := absent_of_not_mem (by decide)
    calc findall skuPattern (render (tile :: tiles))
      _ = findall skuPattern (quoted "sku".toList ++ ':' ::
            (tile.skuText ++ tile.fromTitle (render tiles))) := findall_append hopen
      _ = [tile.skuText, found.1.text, found.2.1.text] ::
            findall skuPattern ('\x7d' :: render found.2.2) :=
          findall_of_match hmatch fun heq => absurd (List.cons.inj heq).1 (by decide)
      _ = [tile.skuText, found.1.text, found.2.1.text] :: findall skuPattern (render found.2.2) :=
          congrArg _ (findall_append hclose)

theorem findPrice_length {tiles : List Tile} {found : PriceText × List Tile}
    (h : findPrice tiles = some found) : found.2.length < tiles.length := by
  induction tiles with
  | nil => cases h
  | cons tile tiles ih =>
    rw [findPrice] at h
    cases hprice : tile.price with
    | some price =>
      rw [hprice] at h
      cases h
      exact Nat.lt_succ_self tiles.length
    | none =>
      rw [hprice] at h
      exact (ih h).trans (Nat.lt_succ_self tiles.length)

theorem findTitle_length {tiles : List Tile} {found : PlainText × PriceText × List Tile}
    (h : findTitle tiles = some found) : found.2.2.length < tiles.length := by
  induction tiles with
  | nil => cases h
  | cons tile tiles ih =>
    rw [findTitle] at h
    cases htitle : tile.title with
    | some title =>
      rw [htitle] at h
      obtain ⟨found', hfound', rfl⟩ := Option.map_eq_some_iff.mp h
      exact findPrice_length hfound'
    | none =>
      rw [htitle] at h
      exact (ih h).trans (Nat.lt_succ_self tiles.length)

/-- **What the pattern finds in a text of tiles.** -/
theorem findall_render (tiles : List Tile) :
    findall skuPattern (render tiles) = (readTiles none tiles).map Found.groups := by
  -- on the number of tiles: a match ends within a later tile, and the search goes on behind it
  induction hlength : tiles.length using Nat.strong_induction_on generalizing tiles with
  | _ length ih =>
    cases tiles with
    | nil => rfl
    | cons tile tiles =>
      have hread : readTiles none (tile :: tiles) =
          readTiles (some (tile.sku, none)) (tile :: tiles) := rfl
      rw [findall_render_cons, hread, readTiles_sku]
      cases hfound : findTitle (tile :: tiles) with
      | none => rfl
      | some found =>
        have hrest := ih found.2.2.length (hlength ▸ findTitle_length hfound) found.2.2 rfl
        exact congrArg _ hrest

end MarketplacePipeline.OzonCatalogCollector
