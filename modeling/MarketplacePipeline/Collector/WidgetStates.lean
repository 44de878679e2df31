import MarketplacePipeline.Algorithm.Backtracking
import MarketplacePipeline.Domain.Product
import MarketplacePipeline.Python.Json

/-!
# The products of a widget state

`_extract_from_widget` reads products out of the text of a widget state with one regular expression,
which looks for a sku, then for the next title, then for the next price.  `_parse_products` does so
for each widget state of a page.

`float` is `float(digits)`, and `httpUrl` is pydantic's `HttpUrl`, which gives the text of the URL
or raises a `ValidationError`.
-/

namespace MarketplacePipeline.OzonCatalogCollector

open Backtracking

/-- `CATEGORY_NAME`. -/
def categoryName : Str := "Смартфоны".toList

/-! ### The regular expression -/

/-- A text in double quotes. -/
def quoted (text : Str) : Str := '"' :: (text ++ ['"'])

/-- `"name"\s*:\s*`. -/
def keyPattern (name : Str) : List (Piece Char) :=
  [.word (quoted name), .run Str.isSpace 0 false false, .word [':'], .run Str.isSpace 0 false false]

/-- `"([^"]+)"`. -/
def valuePattern : List (Piece Char) :=
  [.word ['"'], .run (fun c => c != '"') 1 false true, .word ['"']]

/-- `"price"\s*:\s*"([^"]+)"`. -/
def pricePattern : List (Piece Char) := keyPattern "price".toList ++ valuePattern

/-- `"title"\s*:\s*"([^"]+)".*?"price"\s*:\s*"([^"]+)"`. -/
def titlePattern : List (Piece Char) :=
  keyPattern "title".toList ++ (valuePattern ++ gap :: pricePattern)

/-- `"sku"\s*:\s*(\d+).*?"title"\s*:\s*"([^"]+)".*?"price"\s*:\s*"([^"]+)"`. -/
def skuPattern : List (Piece Char) :=
  keyPattern "sku".toList ++ .run Str.isDecimal 1 false true :: gap :: titlePattern

/-! ### The products -/

section

variable (float : Str → ℚ) (httpUrl : Str → Except PyError Str)

/-- `_parse_price(value)`. -/
def parsePrice (value : Str) : Option ℚ :=
  let digits := value.filter Str.isDecimal
  if digits.isEmpty then none else some (float digits)

/-- `f"https://www.ozon.ru/product/{product_id}/"`. -/
def productUrl (productId : Str) : Str :=
  "https://www.ozon.ru/product/".toList ++ productId ++ "/".toList

/-- The `Product(...)` of a sku, a title and a price. -/
def newProduct (sku title : Str) (price : ℚ) (collectedAt : Timestamp) :
    Except PyError Product := do
  let url ← httpUrl (productUrl sku)
  return {
    id := sku
    name := Str.replace "\\u0026".toList "&".toList title
    price := price
    currency := "RUB".toList
    url := url
    category := categoryName
    collectedAt := collectedAt
    description := "Категория: ".toList ++ categoryName ++ ". ".toList ++ title }

/-- `for sku, title, price_raw in sku_blocks: ...`. -/
def productsOfBlocks (collectedAt : Timestamp) : List (List Str) → Except PyError (List Product)
  | [] => .ok []
  | [sku, title, priceRaw] :: skuBlocks =>
    match parsePrice float priceRaw with
    | none => productsOfBlocks collectedAt skuBlocks
    | some price => do
      let product ← newProduct httpUrl sku title price collectedAt
      let products ← productsOfBlocks collectedAt skuBlocks
      return product :: products
  | _ :: _ => .error ⟨.value, "not enough values to unpack (expected 3)".toList⟩

/-- `_extract_from_widget(raw_state, collected_at)`. -/
def extractFromWidget (rawState : Str) (collectedAt : Timestamp) :
    Except PyError (List Product) :=
  productsOfBlocks float httpUrl collectedAt (findall skuPattern rawState)

/-- `widgets.values()`. -/
def widgetValues : Json → Except PyError (List Json)
  | .dict fields => .ok (fields.map Prod.snd)
  | value =>
    .error ⟨.exception, "'".toList ++ value.typeName ++ "' object has no attribute 'values'".toList⟩

/-- `for raw_state in widgets.values(): ...`. -/
def productsOfStates (collectedAt : Timestamp) : List Json → Except PyError (List Product)
  | [] => .ok []
  | .str rawState :: states =>
    if ¬ "tileGridDesktop".toList <:+: rawState ∧ ¬ "sku".toList <:+: rawState then
      productsOfStates collectedAt states
    else do
      let found ← extractFromWidget float httpUrl rawState collectedAt
      let products ← productsOfStates collectedAt states
      return found ++ products
  | _ :: states => productsOfStates collectedAt states

/-- `_parse_products(payload)`, where `collectedAt` is `datetime.now(tz=UTC)`. -/
def parseProducts (payload : Json) (collectedAt : Timestamp) : Except PyError (List Product) := do
  let states ← payload.get "widgetStates".toList .null
  -- `payload.get("widgetStates") or {}`
  let states ← widgetValues (if states.truthy then states else .dict [])
  productsOfStates float httpUrl collectedAt states

end

end MarketplacePipeline.OzonCatalogCollector
