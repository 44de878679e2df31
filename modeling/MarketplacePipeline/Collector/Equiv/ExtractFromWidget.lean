import MarketplacePipeline.Collector.Equiv.WidgetTiles
import Mathlib.Data.List.DropRight
import Mathlib.Data.List.Forall2

/-!
# When `_extract_from_widget` gives each tile its own fields

The pattern of `_extract_from_widget` goes over the ends of the tiles, so that what is read of a
tile without a title or without a price is put together with the fields of the tiles after it.
`readsTiles_iff` says when the products are those of the complete tiles all the same.
-/

namespace MarketplacePipeline.OzonCatalogCollector

open Backtracking

/-! ### What is read of the tiles, and the complete tiles -/

/-- The tiles since the last complete one. -/
def sinceComplete (tiles : List Tile) : List Tile := tiles.rtakeWhile fun tile => !tile.complete

/-- Where the tiles before a tile with a price are incomplete, the first title among them is the
title of the tile; and if the tile is complete, the sku of the first one is its sku. -/
structure OwnFields (waiting : List Tile) (tile : Tile) : Prop where
  title : ∀ title ∈ waiting.findSome? Tile.title, tile.title = some title
  sku : tile.complete = true → ∀ first ∈ waiting.head?, first.sku = tile.sku

/-- No field of an incomplete tile is put together with a later tile. -/
def KeptApart (tiles : List Tile) : Prop :=
  ∀ before tile after, tiles = before ++ tile :: after → tile.price.isSome = true →
    OwnFields (sinceComplete before) tile

/-- `KeptApart`, for tiles that come after others. -/
def KeptApartAfter (before tiles : List Tile) : Prop :=
  ∀ before' tile after, tiles = before' ++ tile :: after → tile.price.isSome = true →
    OwnFields (sinceComplete (before ++ before')) tile

/-- The fields that are read are those of a tile, or at least the price has the same value. -/
def Fits (float : Str → ℚ) (found : Found) (tile : Tile) : Prop :=
  found.sku = tile.sku ∧ tile.title = some found.title ∧
    ∃ price ∈ tile.price, float found.price.digits = float price.digits

/-- What is read of the tiles since the last complete one. -/
def pendingOf (waiting : List Tile) : Option (ℕ × Option PlainText) :=
  waiting.head?.map fun first => (first.sku, waiting.findSome? Tile.title)

variable {tiles before waiting : List Tile} {tile : Tile} {pending : Option (ℕ × Option PlainText)}
  {float : Str → ℚ}

theorem Tile.complete_iff : tile.complete = true ↔ ∃ title price, tile.title = some title ∧
    tile.price = some price := by
  rw [complete, Bool.and_eq_true, Option.isSome_iff_exists, Option.isSome_iff_exists]
  exact exists_and_exists_comm

theorem sinceComplete_concat_of_complete (h : tile.complete = true) :
    sinceComplete (before ++ [tile]) = [] :=
  List.rtakeWhile_concat_neg _ _ _ (by simp [h])

theorem sinceComplete_concat (h : tile.complete = false) :
    sinceComplete (before ++ [tile]) = sinceComplete before ++ [tile] :=
  List.rtakeWhile_concat_pos _ _ _ (by simp [h])

/-- The sku that is read when a tile comes after `waiting`. -/
def readSku (waiting : List Tile) (tile : Tile) : ℕ :=
  ((pendingOf waiting).map Prod.fst).getD tile.sku

theorem pendingOf_title (waiting : List Tile) :
    (pendingOf waiting).bind Prod.snd = waiting.findSome? Tile.title := by
  cases waiting <;> rfl

theorem pendingOf_concat (waiting : List Tile) (tile : Tile) :
    pendingOf (waiting ++ [tile]) =
      some (readSku waiting tile, (waiting.findSome? Tile.title).or tile.title) := by
  rw [pendingOf, List.findSome?_append, List.findSome?_singleton]
  cases waiting <;> rfl

theorem readSku_eq_iff (waiting : List Tile) (tile : Tile) :
    readSku waiting tile = tile.sku ↔ ∀ first ∈ waiting.head?, first.sku = tile.sku := by
  cases waiting <;> simp [readSku, pendingOf]

/-- A tile with a price ends a match if a title is read before it or in it. -/
theorem readTiles_cons_of_price {title : PlainText} {price : PriceText}
    (htitle : (waiting.findSome? Tile.title).or tile.title = some title)
    (hprice : tile.price = some price) :
    readTiles (pendingOf waiting) (tile :: tiles) =
      ⟨readSku waiting tile, title, price⟩ :: readTiles none tiles := by
  rw [readTiles, pendingOf_title, htitle, hprice]
  rfl

/-- Any other tile is read on. -/
theorem readTiles_cons_of_none
    (h : (waiting.findSome? Tile.title).or tile.title = none ∨ tile.price = none) :
    readTiles (pendingOf waiting) (tile :: tiles) =
      readTiles (pendingOf (waiting ++ [tile])) tiles := by
  rw [readTiles, pendingOf_title, pendingOf_concat]
  rcases h with htitle | hprice
  · rw [htitle]
    rfl
  · rw [hprice]
    cases (waiting.findSome? Tile.title).or tile.title <;> rfl

/-- Every complete tile ends a match. -/
theorem length_complete_le (pending : Option (ℕ × Option PlainText)) (tiles : List Tile) :
    (tiles.filter Tile.complete).length ≤ (readTiles pending tiles).length := by
  induction tiles generalizing pending with
  | nil => exact Nat.le_refl 0
  | cons tile tiles ih =>
    by_cases hcomplete : tile.complete = true
    · obtain ⟨title, price, htitle, hprice⟩ := Tile.complete_iff.mp hcomplete
      obtain ⟨title', htitle'⟩ : ∃ title', (pending.bind Prod.snd).or tile.title = some title' := by
        rw [htitle]
        cases pending.bind Prod.snd with
        | none => exact ⟨title, rfl⟩
        | some title' => exact ⟨title', rfl⟩
      rw [List.filter_cons_of_pos hcomplete, readTiles, htitle', hprice]
      exact Nat.succ_le_succ (ih none)
    · rw [List.filter_cons_of_neg hcomplete]
      rw [readTiles]
      cases (pending.bind Prod.snd).or tile.title with
      | none => exact ih _
      | some title =>
        cases tile.price with
        | none => exact ih _
        | some price => exact (ih none).trans (Nat.le_succ _)

theorem keptApartAfter_cons_iff : KeptApartAfter before (tile :: tiles) ↔
    (tile.price.isSome = true → OwnFields (sinceComplete before) tile) ∧
      KeptApartAfter (before ++ [tile]) tiles := by
  constructor
  · intro h
    refine ⟨fun hprice => ?_, fun before' tile' after htiles => ?_⟩
    · have hown := h [] tile tiles rfl hprice
      rwa [List.append_nil] at hown
    · rw [List.append_assoc]
      exact h (tile :: before') tile' after (congrArg (tile :: ·) htiles)
  · rintro ⟨hhead, htail⟩ before' tile' after htiles
    cases before' with
    | nil =>
      obtain ⟨rfl, -⟩ := List.cons.inj htiles
      rwa [List.append_nil]
    | cons first before' =>
      obtain ⟨rfl, hrest⟩ := List.cons.inj htiles
      have hown := htail before' tile' after hrest
      rwa [List.append_assoc] at hown

/-- What is read at a complete tile are its own fields. -/
theorem fits_iff_ownFields {title title' : PlainText} {price : PriceText}
    (htitle : tile.title = some title) (hprice : tile.price = some price)
    (htitle' : (waiting.findSome? Tile.title).or tile.title = some title') :
    Fits float ⟨readSku waiting tile, title', price⟩ tile ↔ OwnFields waiting tile := by
  have hcomplete : tile.complete = true := Tile.complete_iff.mpr ⟨title, price, htitle, hprice⟩
  have hread : tile.title = some title' ↔
      ∀ title ∈ waiting.findSome? Tile.title, tile.title = some title := by
    cases hwaiting : waiting.findSome? Tile.title with
    | none =>
      rw [hwaiting, Option.none_or] at htitle'
      simp [htitle']
    | some title =>
      rw [hwaiting, Option.some_or] at htitle'
      cases htitle'
      simp
  constructor
  · rintro ⟨hsku, hown, -⟩
    exact ⟨hread.mp hown, fun _ => (readSku_eq_iff waiting tile).mp hsku⟩
  · rintro ⟨hown, hsku⟩
    exact ⟨(readSku_eq_iff waiting tile).mpr (hsku hcomplete), hread.mpr hown, price, hprice, rfl⟩

/-- A tile that is not complete must not end a match. -/
theorem not_forall₂_of_length {found : Found} (h : tile.complete = false) :
    ¬ List.Forall₂ (Fits float) (found :: readTiles none tiles)
      ((tile :: tiles).filter Tile.complete) := by
  intro hfits
  have hlength := hfits.length_eq
  rw [List.filter_cons_of_neg (by simp [h]), List.length_cons] at hlength
  have hle := length_complete_le none tiles
  omega

/-- What is read of the tiles after some others are the fields of the complete ones if and only if
the fields are kept apart there. -/
theorem fits_readTiles_iff (before tiles : List Tile) :
    List.Forall₂ (Fits float) (readTiles (pendingOf (sinceComplete before)) tiles)
      (tiles.filter Tile.complete) ↔ KeptApartAfter before tiles := by
  induction tiles generalizing before with
  | nil =>
    refine ⟨fun _ before' tile after h => ?_, fun _ => .nil⟩
    simp at h
  | cons tile tiles ih =>
    rw [keptApartAfter_cons_iff, ← ih (before ++ [tile])]
    by_cases hend : ((sinceComplete before).findSome? Tile.title).or tile.title = none ∨
        tile.price = none
    · -- the tile is read on, and it has a price only if no title is read
      have hincomplete : tile.complete = false := by
        rw [Bool.eq_false_iff, ne_eq, Tile.complete_iff]
        rintro ⟨title, price, htitle, hprice⟩
        simp [htitle, hprice] at hend
      have hown : tile.price.isSome = true → OwnFields (sinceComplete before) tile := by
        intro hprice
        have hnone : ((sinceComplete before).findSome? Tile.title).or tile.title = none :=
          hend.resolve_right (Option.isSome_iff_ne_none.mp hprice)
        rw [Option.or_eq_none_iff] at hnone
        refine ⟨?_, ?_⟩
        · simp [hnone.1]
        · simp [hincomplete]
      rw [readTiles_cons_of_none hend, sinceComplete_concat hincomplete,
        List.filter_cons_of_neg (by simp [hincomplete]), and_iff_right hown]
    · -- the tile ends a match
      obtain ⟨hread, hprice⟩ := not_or.mp hend
      obtain ⟨title', htitle'⟩ := Option.ne_none_iff_exists'.mp hread
      obtain ⟨price, hprice⟩ := Option.ne_none_iff_exists'.mp hprice
      rw [readTiles_cons_of_price htitle' hprice]
      cases htitle : tile.title with
      | some title =>
        have hcomplete : tile.complete = true :=
          Tile.complete_iff.mpr ⟨title, price, htitle, hprice⟩
        rw [sinceComplete_concat_of_complete hcomplete, List.filter_cons_of_pos hcomplete,
          List.forall₂_cons, fits_iff_ownFields htitle hprice htitle', hprice]
        simp [pendingOf]
      | none =>
        -- the match would end at a tile that has only a price
        have hincomplete : tile.complete = false := by
          simp [Tile.complete, htitle]
        rw [htitle, Option.or_none] at htitle'
        refine iff_of_false (not_forall₂_of_length hincomplete) ?_
        rintro ⟨hown, -⟩
        have htitle'' := (hown (by simp [hprice])).title title' htitle'
        rw [htitle] at htitle''
        cases htitle''

/-! ### The products -/

/-- A product has the sku, the title and the price of a tile. -/
structure Carries (float : Str → ℚ) (product : Product) (tile : Tile) : Prop where
  id : product.id = tile.skuText
  name : ∃ title ∈ tile.title, product.name = title.text
  price : ∃ price ∈ tile.price, product.price = float price.digits

section

variable (float : Str → ℚ) (httpUrl : Str → Except PyError Str) (collectedAt : Timestamp)

/-- The products of a text of tiles are one for each complete tile, in order, each with the sku, the
title and the price of its tile. -/
def ReadsTiles (tiles : List Tile) : Prop :=
  ∃ products, extractFromWidget float httpUrl (render tiles) collectedAt = .ok products ∧
    List.Forall₂ (Carries float) products (tiles.filter Tile.complete)

/-- The URL of the product of a tile is one for pydantic. -/
def HasUrl (tile : Tile) : Prop := ∃ url, httpUrl (productUrl tile.skuText) = .ok url

/-- The `Product(...)` of the fields that are read. -/
def Found.product (found : Found) : Except PyError Product :=
  newProduct httpUrl (Nat.toDigits 10 found.sku) found.title.text (float found.price.digits)
    collectedAt

variable {float httpUrl collectedAt}

theorem parsePrice_text (price : PriceText) :
    parsePrice float price.text = some (float price.digits) := by
  obtain ⟨c, hc, hdecimal⟩ := price.hasDigit
  have hne : (price.text.filter Str.isDecimal).isEmpty = false := by
    rw [List.isEmpty_eq_false_iff]
    exact List.ne_nil_of_mem (List.mem_filter.mpr ⟨hc, hdecimal⟩)
  rw [parsePrice, hne]
  rfl

theorem replace_text (title : PlainText) :
    Str.replace "\\u0026".toList "&".toList title.text = title.text := by
  refine Str.replace_eq_self _ fun hinside => ?_
  have hbackslash : '\\' ∈ title.text := hinside.subset (by simp)
  exact (title.plain _ hbackslash).2.1 rfl

theorem skuText_injective {n m : ℕ} (h : Nat.toDigits 10 n = Nat.toDigits 10 m) : n = m := by
  rw [← Nat.ofDigitChars_ten_toDigits (n := n), h, Nat.ofDigitChars_ten_toDigits]

/-- The product of the fields that are read carries those of a tile if the fields are its own. -/
theorem exists_product_iff {found : Found} :
    (∃ product, found.product float httpUrl collectedAt = .ok product ∧
        Carries float product tile) ↔
      HasUrl httpUrl tile ∧ Fits float found tile := by
  constructor
  · rintro ⟨product, hproduct, hcarries⟩
    obtain ⟨url, hurl, hpure⟩ := bind_eq_ok_iff.mp hproduct
    cases hpure
    have hsku : found.sku = tile.sku := skuText_injective hcarries.id
    obtain ⟨title, htitle, hname⟩ := hcarries.name
    have hown : found.title = title := PlainText.ext ((replace_text found.title).symm.trans hname)
    rw [hsku] at hurl
    exact ⟨⟨url, hurl⟩, hsku, hown ▸ htitle, hcarries.price⟩
  · rintro ⟨⟨url, hurl⟩, hsku, htitle, hprice⟩
    have hurl' : httpUrl (productUrl (Nat.toDigits 10 found.sku)) = .ok url := by
      rw [hsku]
      exact hurl
    refine ⟨_, bind_eq_ok_iff.mpr ⟨url, hurl', rfl⟩, congrArg (Nat.toDigits 10) hsku, ?_, hprice⟩
    exact ⟨found.title, htitle, replace_text found.title⟩

theorem productsOfBlocks_cons_iff {found : Found} {founds : List Found} {products : List Product} :
    productsOfBlocks float httpUrl collectedAt ((found :: founds).map Found.groups) = .ok products ↔
      ∃ product rest, found.product float httpUrl collectedAt = .ok product ∧
        productsOfBlocks float httpUrl collectedAt (founds.map Found.groups) = .ok rest ∧
          products = product :: rest := by
  rw [List.map_cons, Found.groups, productsOfBlocks, parsePrice_text]
  dsimp only
  rw [bind_eq_ok_iff]
  constructor
  · rintro ⟨product, hproduct, hblocks⟩
    obtain ⟨rest, hrest, hpure⟩ := bind_eq_ok_iff.mp hblocks
    cases hpure
    exact ⟨product, rest, hproduct, hrest, rfl⟩
  · rintro ⟨product, rest, hproduct, hrest, rfl⟩
    exact ⟨product, hproduct, bind_eq_ok_iff.mpr ⟨rest, hrest, rfl⟩⟩

/-- The products of the fields that are read carry those of some tiles if the fields are theirs. -/
theorem exists_products_iff {founds : List Found} : (∃ products,
      productsOfBlocks float httpUrl collectedAt (founds.map Found.groups) = .ok products ∧
        List.Forall₂ (Carries float) products tiles) ↔
    List.Forall₂ (fun found tile => HasUrl httpUrl tile ∧ Fits float found tile) founds tiles := by
  induction founds generalizing tiles with
  | nil =>
    rw [List.forall₂_nil_left_iff]
    constructor
    · rintro ⟨products, hproducts, hcarries⟩
      cases hproducts
      exact List.forall₂_nil_left_iff.mp hcarries
    · rintro rfl
      exact ⟨[], rfl, .nil⟩
  | cons found founds ih =>
    rw [List.forall₂_cons_left_iff]
    constructor
    · rintro ⟨products, hproducts, hcarries⟩
      obtain ⟨product, rest, hproduct, hrest, rfl⟩ := productsOfBlocks_cons_iff.mp hproducts
      obtain ⟨tile, tiles', hhead, htail, rfl⟩ := List.forall₂_cons_left_iff.mp hcarries
      exact ⟨tile, tiles', exists_product_iff.mp ⟨product, hproduct, hhead⟩,
        ih.mp ⟨rest, hrest, htail⟩, rfl⟩
    · rintro ⟨tile, tiles', hhead, htail, rfl⟩
      obtain ⟨product, hproduct, hhead⟩ := exists_product_iff.mpr hhead
      obtain ⟨rest, hrest, htail⟩ := ih.mpr htail
      exact ⟨product :: rest, productsOfBlocks_cons_iff.mpr ⟨product, rest, hproduct, hrest, rfl⟩,
        .cons hhead htail⟩

theorem readsTiles_iff_fits : ReadsTiles float httpUrl collectedAt tiles ↔
    (∀ tile ∈ tiles.filter Tile.complete, HasUrl httpUrl tile) ∧
      List.Forall₂ (Fits float) (readTiles none tiles) (tiles.filter Tile.complete) := by
  have hflip : ∀ {R : Found → Tile → Prop} {founds : List Found} {tiles : List Tile},
      List.Forall₂ R founds tiles ↔ List.Forall₂ (flip R) tiles founds :=
    ⟨List.Forall₂.flip, List.Forall₂.flip⟩
  rw [ReadsTiles, extractFromWidget, findall_render, exists_products_iff, hflip,
    hflip (R := Fits _)]
  exact List.forall₂_and_left _ _

/-! ### The condition -/

theorem keptApart_iff_fits (float : Str → ℚ) (tiles : List Tile) : KeptApart tiles ↔
    List.Forall₂ (Fits float) (readTiles none tiles) (tiles.filter Tile.complete) :=
  (fits_readTiles_iff [] tiles).symm

/-- Tiles that all have a title and a price are kept apart. -/
theorem keptApart_of_complete (h : ∀ tile ∈ tiles, tile.complete = true) : KeptApart tiles := by
  intro before tile after htiles _
  have hnone : sinceComplete before = [] := by
    rw [sinceComplete, List.rtakeWhile_eq_nil_iff]
    intro hne
    have hlast : before.getLast hne ∈ tiles := by
      rw [htiles]
      exact List.mem_append_left _ (List.getLast_mem hne)
    simp [h _ hlast]
  rw [hnone]
  exact ⟨by simp, by simp⟩

variable (float httpUrl collectedAt tiles) in
/-- **When `_extract_from_widget` gives each tile its own fields**: if and only if the tiles are
kept apart and the products of the complete ones have a URL. -/
theorem readsTiles_iff : ReadsTiles float httpUrl collectedAt tiles ↔
    KeptApart tiles ∧ ∀ tile ∈ tiles, tile.complete = true → HasUrl httpUrl tile := by
  rw [readsTiles_iff_fits, keptApart_iff_fits float, and_comm]
  simp only [List.mem_filter, and_imp]

end

/-! ### A tile without a title and a price -/

/-- `{"sku":1}` and `{"sku":2,"title":"B","price":"200"}`. -/
def skuThenProduct : List Tile :=
  [{ sku := 1, title := none, price := none },
    { sku := 2
      title := some { text := ['B'], ne_nil := by decide, plain := by simp }
      price := some { text := ['2', '0', '0'], ne_nil := by decide, plain := by simp
                      hasDigit := ⟨'2', List.mem_cons_self, by decide⟩ } }]

/-- The title and the price of the second tile are put under the sku of the first one. -/
theorem not_readsTiles : ¬ ReadsTiles (fun digits => (Nat.ofDigitChars 10 digits 0 : ℚ)) .ok 0
    skuThenProduct := by
  intro h
  obtain ⟨-, hfits⟩ := readsTiles_iff_fits.mp h
  have hsku := (List.forall₂_cons.mp hfits).1.1
  exact absurd hsku (by decide)

end MarketplacePipeline.OzonCatalogCollector
