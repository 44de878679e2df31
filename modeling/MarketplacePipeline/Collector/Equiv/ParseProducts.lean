import MarketplacePipeline.Collector.Equiv.ExtractFromWidget

/-!
# The products of a page

`_parse_products` looks into the widget states that mention a sku or a tile grid; the others have no
products anyway (`productsOfStates_eq`).  A page whose widgets have tiles that are kept apart gives
the products of all their complete tiles (`exists_parseProducts`).
-/

namespace MarketplacePipeline.OzonCatalogCollector

open Backtracking

variable {float : Str → ℚ} {httpUrl : Str → Except PyError Str} {collectedAt : Timestamp}

/-- The widget states that are texts. -/
def stateTexts : List Json → List Str
  | [] => []
  | .str rawState :: states => rawState :: stateTexts states
  | _ :: states => stateTexts states

/-- A state without a sku has no products. -/
theorem extractFromWidget_of_not_sku {rawState : Str} (h : ¬ "sku".toList <:+: rawState) :
    extractFromWidget float httpUrl rawState collectedAt = .ok [] := by
  have hkey : ¬ quoted "sku".toList <:+: rawState :=
    fun hinside => h (List.IsInfix.trans ⟨['"'], ['"'], rfl⟩ hinside)
  have hnone : findall skuPattern rawState = [] := findall_eq_nil_of_word hkey
  rw [extractFromWidget, hnone, productsOfBlocks]

/-- The guard of `_parse_products` makes no difference. -/
theorem productsOfStates_str (rawState : Str) (states : List Json) :
    productsOfStates float httpUrl collectedAt (.str rawState :: states) =
      extractFromWidget float httpUrl rawState collectedAt >>= fun found =>
        productsOfStates float httpUrl collectedAt states >>= fun products =>
          pure (found ++ products) := by
  by_cases hskip : ¬ "tileGridDesktop".toList <:+: rawState ∧ ¬ "sku".toList <:+: rawState
  · have hstates : productsOfStates float httpUrl collectedAt (.str rawState :: states) =
        productsOfStates float httpUrl collectedAt states := if_pos hskip
    rw [hstates, extractFromWidget_of_not_sku hskip.2]
    exact (bind_pure _).symm
  · exact if_neg hskip

/-- `_parse_products` could as well look into every state that is a text. -/
theorem productsOfStates_eq (states : List Json) :
    productsOfStates float httpUrl collectedAt states =
      (stateTexts states).mapM
        (fun rawState => extractFromWidget float httpUrl rawState collectedAt) >>= fun found =>
          pure found.flatten := by
  induction states with
  | nil => rfl
  | cons state states ih =>
    cases state with
    | str rawState =>
      rw [productsOfStates_str, ih, stateTexts, List.mapM_cons]
      simp only [bind_assoc, pure_bind, List.flatten_cons]
    | _ => exact ih

/-- The widget states of a page, given by the tiles of each widget. -/
def tileStates (widgets : List (Str × List Tile)) : Json :=
  .dict (widgets.map fun widget => (widget.1, .str (render widget.2)))

theorem widgetValues_tileStates (widgets : List (Str × List Tile)) :
    widgetValues (if (tileStates widgets).truthy then tileStates widgets else .dict []) =
      .ok (widgets.map fun widget => .str (render widget.2)) := by
  cases widgets with
  | nil => rfl
  | cons widget widgets =>
    have hvalues : (tileStates (widget :: widgets)).truthy = true := rfl
    rw [if_pos hvalues, tileStates, widgetValues, List.map_map]
    rfl

theorem stateTexts_map (widgets : List (Str × List Tile)) :
    stateTexts (widgets.map fun widget => .str (render widget.2)) =
      widgets.map fun widget => render widget.2 := by
  induction widgets with
  | nil => rfl
  | cons widget widgets ih => exact congrArg (render widget.2 :: ·) ih

/-- Widgets whose tiles are kept apart, each with the products of its complete tiles. -/
theorem exists_extract {widgets : List (Str × List Tile)}
    (h : ∀ widget ∈ widgets, ReadsTiles float httpUrl collectedAt widget.2) :
    ∃ found, (widgets.map fun widget => render widget.2).mapM
        (fun rawState => extractFromWidget float httpUrl rawState collectedAt) = .ok found ∧
      List.Forall₂ (Carries float) found.flatten
        ((widgets.flatMap Prod.snd).filter Tile.complete) := by
  induction widgets with
  | nil => exact ⟨[], rfl, .nil⟩
  | cons widget widgets ih =>
    obtain ⟨hhead, htail⟩ := List.forall_mem_cons.mp h
    obtain ⟨products, hproducts, hcarries⟩ := hhead
    obtain ⟨found, hfound, hrest⟩ := ih htail
    refine ⟨products :: found, ?_, ?_⟩
    · rw [List.map_cons, List.mapM_cons, bind_eq_ok_iff]
      exact ⟨products, hproducts, bind_eq_ok_iff.mpr ⟨found, hfound, rfl⟩⟩
    · rw [List.flatten_cons, List.flatMap_cons, List.filter_append]
      exact List.rel_append hcarries hrest

/-- **The products of a page** are those of the complete tiles of all its widgets, in order, if the
tiles of each widget are read as they are. -/
theorem exists_parseProducts {fields : List (Str × Json)} {widgets : List (Str × List Tile)}
    (hfields : fields.lookup "widgetStates".toList = some (tileStates widgets))
    (h : ∀ widget ∈ widgets, ReadsTiles float httpUrl collectedAt widget.2) :
    ∃ products, parseProducts float httpUrl (.dict fields) collectedAt = .ok products ∧
      List.Forall₂ (Carries float) products
        ((widgets.flatMap Prod.snd).filter Tile.complete) := by
  obtain ⟨found, hfound, hcarries⟩ := exists_extract h
  refine ⟨found.flatten, ?_, hcarries⟩
  rw [parseProducts, Json.get, hfields]
  refine bind_eq_ok_iff.mpr ⟨tileStates widgets, rfl, bind_eq_ok_iff.mpr ⟨_,
    widgetValues_tileStates widgets, ?_⟩⟩
  rw [productsOfStates_eq, stateTexts_map, hfound]
  rfl

end MarketplacePipeline.OzonCatalogCollector
