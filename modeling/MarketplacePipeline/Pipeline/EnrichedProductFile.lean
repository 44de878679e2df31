import MarketplacePipeline.Io.AtomicWrite
import MarketplacePipeline.Pipeline.RunPipeline
import MarketplacePipeline.Python.FloatRepr
import MarketplacePipeline.Python.JsonDumps
import MarketplacePipeline.Python.JsonLoads
import MarketplacePipeline.Python.Number
import MarketplacePipeline.Python.UtcTime

/-!
# `JsonEnrichedProductRepository`

`save` writes the enriched products and the collection that they come from to a JSON file.
`readDataset` is what a reader makes of the bytes of such a file.
-/

namespace MarketplacePipeline

/-! ### UTF-8 -/

namespace Str

/-- `text.encode("utf-8")`. -/
def encodeUtf8 (text : Str) : List UInt8 := text.flatMap String.utf8EncodeChar

/-- `bytes.decode("utf-8")`. -/
def decodeUtf8 (bytes : List UInt8) : Option Str :=
  (ByteArray.mk bytes.toArray).utf8Decode?.map Array.toList

theorem decodeUtf8_encodeUtf8 (text : Str) : decodeUtf8 (encodeUtf8 text) = some text := by
  have hbytes : ByteArray.mk (encodeUtf8 text).toArray = text.utf8Encode := by
    ext1
    exact List.data_toByteArray.symm
  unfold decodeUtf8
  rw [hbytes, List.utf8Decode?_utf8Encode, Option.map_some]

end Str

/-! ### `model_dump(mode="json")` -/

/-- `product.model_dump(mode="json")`. -/
def Product.modelDump (p : Product) : List (Str × Json) :=
  [("id".toList, .str p.id), ("name".toList, .str p.name),
    ("price".toList, .float (PyFloat.repr (.ofRat p.price))),
    ("currency".toList, .str p.currency), ("url".toList, .str p.url),
    ("category".toList, .str p.category),
    ("collected_at".toList, .str (DateTimeFields.utc p.collectedAt).isoformatZ),
    ("description".toList, .str p.description)]

def EnrichedProduct.modelDump (p : EnrichedProduct) : List (Str × Json) :=
  p.toProduct.modelDump ++ [("segment".toList, .str p.segment.value)]

/-- A text, or `None`. -/
def Json.ofOption : Option Str → Json
  | some text => .str text
  | none => .null

def CollectionResult.modelDump (collection : CollectionResult) : List (Str × Json) :=
  [("products".toList, .list (collection.products.map fun p => .dict p.modelDump)),
    ("target_count".toList, .int collection.targetCount),
    ("collected_count".toList, .int collection.collectedCount),
    ("exhausted".toList, .bool collection.exhausted),
    ("degraded".toList, .bool collection.degraded),
    ("error_message".toList, .ofOption collection.errorMessage)]

/-! ### The repository -/

namespace JsonEnrichedProductRepository

open JsonDumps JsonLoads

/-- What is written. -/
def payload (products : List EnrichedProduct) (collection : CollectionResult) : Json :=
  .dict [("meta".toList, .dict collection.modelDump),
    ("products".toList, .list (products.map fun p => .dict p.modelDump))]

/-- The content of the file: `json.dumps(payload, ensure_ascii=False, indent=2)`, in UTF-8. -/
def content (products : List EnrichedProduct) (collection : CollectionResult) : List UInt8 :=
  Str.encodeUtf8 (dumps (.indented 2) (payload products collection))

/-- `self._output_dir / "enriched_products.json"`. -/
def outputPathIn (outputDir : Str) : Str := outputDir ++ "/enriched_products.json".toList

/-- `FileNotFoundError` of `os.replace`. -/
def notFoundError (path : Str) : PyError :=
  ⟨.exception, "[Errno 2] No such file or directory: '".toList ++ tmpPath path ++ "' -> '".toList ++
    path ++ "'".toList⟩

/-- `atomic_write_text(path, content)`, where nobody else writes. -/
def atomicWriteText (path : Str) (content : List UInt8) :
    EStateM PyError (Files Str (List UInt8)) Unit := do
  let inode ← modifyGet fun files => files.openTruncate [] (tmpPath path)
  modify fun files => files.write inode content
  match (← get).rename (tmpPath path) path with
  | none => throw (notFoundError path)
  | some files => set files

/-- `save(products, collection_result)`, in a directory that is there. -/
def save (outputDir : Str) (products : List EnrichedProduct) (collection : CollectionResult) :
    EStateM PyError (Files Str (List UInt8)) Str := do
  let outputPath := outputPathIn outputDir
  atomicWriteText outputPath (content products collection)
  pure outputPath

/-! ### A reader -/

/-- A `float` from its numeral, as its `repr`. -/
def floatRepr (numeral : Str) : Str := (Number.floatOfRepr numeral).repr

/-- The value of a field, if `read` can read it. -/
def field {α : Type} (key : String) (read : Json → Option α) : Json → Option α
  | .dict fields => (fields.lookup key.toList).bind read
  | _ => none

def readText : Json → Option Str
  | .str s => some s
  | _ => none

def readFlag : Json → Option Bool
  | .bool b => some b
  | _ => none

def readInteger : Json → Option ℤ
  | .int n => some n
  | _ => none

def readMessage : Json → Option (Option Str)
  | .null => some none
  | .str s => some (some s)
  | _ => none

def readPrice : Json → Option ℚ
  | .float repr => (Number.floatOfRepr repr).magnitude?
  | _ => none

def readTime (value : Json) : Option Timestamp := (readText value).bind readZ

def readSegment (value : Json) : Option PriceSegment := (readText value).bind PriceSegment.ofValue

def readList {α : Type} (read : Json → Option α) : Json → Option (List α)
  | .list items => items.mapM read
  | _ => none

def readProduct (value : Json) : Option Product := do
  let id ← field "id" readText value
  let name ← field "name" readText value
  let price ← field "price" readPrice value
  let currency ← field "currency" readText value
  let url ← field "url" readText value
  let category ← field "category" readText value
  let collectedAt ← field "collected_at" readTime value
  let description ← field "description" readText value
  pure { id, name, price, currency, url, category, collectedAt, description }

def readEnriched (value : Json) : Option EnrichedProduct := do
  let product ← readProduct value
  let segment ← field "segment" readSegment value
  pure { toProduct := product, segment }

def readCollection (value : Json) : Option CollectionResult := do
  let products ← field "products" (readList readProduct) value
  let targetCount ← field "target_count" readInteger value
  let collectedCount ← field "collected_count" readInteger value
  let exhausted ← field "exhausted" readFlag value
  let degraded ← field "degraded" readFlag value
  let errorMessage ← field "error_message" readMessage value
  pure { products, targetCount, collectedCount := collectedCount.toNat, exhausted, degraded,
         errorMessage }

/-- The collection and the enriched products in the bytes of a file. -/
def readDataset (bytes : List UInt8) : Option (CollectionResult × List EnrichedProduct) := do
  let text ← Str.decodeUtf8 bytes
  match loads floatRepr (fun _ => []) text with
  | .error _ => none
  | .ok value =>
    let collection ← field "meta" readCollection value
    let products ← field "products" (readList readEnriched) value
    pure (collection, products)

end JsonEnrichedProductRepository

end MarketplacePipeline
