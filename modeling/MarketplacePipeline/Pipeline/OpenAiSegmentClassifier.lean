import MarketplacePipeline.Algorithm.Chunks
import MarketplacePipeline.Domain.Product
import MarketplacePipeline.Http.HttpClient
import MarketplacePipeline.Python.Json
import Mathlib.Data.Finset.Dedup
import Mathlib.Logic.Function.Basic

/-!
# `OpenAiSegmentClassifier`

`classify` asks an LLM for the segments of the products, one POST for each batch.  How the endpoint
answers each attempt of each POST is a parameter, an `LlmEndpoint`; the world is the list of the
POSTs that were made.  A batch whose answer cannot be used is Standard.
-/

namespace MarketplacePipeline

/-! ### The values of the segments -/

/-- `segment.value`. -/
def PriceSegment.value : PriceSegment → Str
  | .economy => "Эконом".toList
  | .standard => "Стандарт".toList
  | .premium => "Премиум".toList

/-- `PriceSegment(value)`, if the value is in `SEGMENT_VALUES`. -/
def PriceSegment.ofValue (value : Str) : Option PriceSegment :=
  [PriceSegment.economy, .standard, .premium].find? fun segment => segment.value = value

/-! ### The endpoint -/

/-- The settings that the classifier reads. -/
structure LlmSettings where
  mockLlm : Bool := false
  openaiApiKey : Str := []
  openaiModel : Str := "gpt-4o-mini".toList
  openaiBaseUrl : Str := "https://api.openai.com/v1".toList
  llmBatchSize : ℤ := 25
  httpMaxRetries : ℤ := 5

/-- A product in the message of the user. -/
structure LlmItem where
  id : Str
  name : Str
  description : Str
  deriving DecidableEq

/-- A call of `HttpClient.post`; its body asks for a JSON object, at temperature 0. -/
structure LlmPost where
  url : Str
  authorization : Str
  model : Str
  systemPrompt : Str
  items : List LlmItem
  deriving DecidableEq

/-- The endpoint: its answers to the attempts (from 0) of each call of `HttpClient.post` (from 0).
A body that cannot be read stands for the exception of `response.json()`. -/
structure LlmEndpoint where
  chat : (call attempt : ℕ) → HttpAnswer (Except PyError Json)
  raised_isException : ∀ call attempt exc, chat call attempt = .raised exc →
    exc.isException = true
  unreadable_isException : ∀ call attempt status exc message,
    chat call attempt = .response status (.error exc) message → exc.isException = true

/-- `SYSTEM_PROMPT`. -/
def systemPrompt : Str :=
  ("Ты классифицируешь товары маркетплейса по потребительскому сегменту. " ++
    "Верни только JSON-массив объектов вида " ++
    "\x7b\"id\":\"...\", \"segment\":\"Эконом|Стандарт|Премиум\"\x7d. " ++
    "Не добавляй пояснений.").toList

/-! ### The classifier -/

/-- A classifier, and the functions of Python's library that it uses. -/
structure OpenAiSegmentClassifier where
  settings : LlmSettings
  json : JsonText
  /-- `text.lower()`. -/
  lower : Str → Str

/-- A `dict[str, PriceSegment]`. -/
abbrev Segments := Str → Option PriceSegment

abbrev LlmM := EStateM PyError (List LlmPost)

namespace OpenAiSegmentClassifier

variable (classifier : OpenAiSegmentClassifier) (endpoint : LlmEndpoint)

/-- `_mock_classify(product)`. -/
def mockClassify (product : Product) : EnrichedProduct :=
  let name := classifier.lower product.name
  let contains := fun token : String => token.toList <:+: name
  let segment : PriceSegment :=
    if contains "budget" ∨ contains "econom" ∨ contains "дешев" then .economy
    else if contains "flagship" ∨ contains "pro" ∨ contains "premium" ∨ contains "премиум" then
      .premium
    else if product.price < 15000 then .economy
    else if 60000 < product.price then .premium
    else .standard
  { toProduct := product, segment := segment }

/-- `_chunk(items, size)`; a negative size gives no batch. -/
def chunk (items : List Product) (size : ℤ) : Except PyError (List (List Product)) :=
  if size = 0 then .error ⟨.value, "range() arg 3 must not be zero".toList⟩
  else .ok (Chunks.chunks size.toNat items)

/-- The POST for a batch. -/
def postOf (batch : List Product) : LlmPost where
  url := classifier.settings.openaiBaseUrl.rdropWhile (· = '/') ++ "/chat/completions".toList
  authorization := "Bearer ".toList ++ classifier.settings.openaiApiKey
  model := classifier.settings.openaiModel
  systemPrompt := systemPrompt
  items := batch.map fun p => { id := p.id, name := p.name, description := p.description }

/-- `self._http.post(...)`. -/
def httpPost (post : LlmPost) : LlmM (Except PyError Json) := do
  let call := (← get).length
  modify fun posts => posts ++ [post]
  HttpClient.retry classifier.settings.httpMaxRetries fun attempt =>
    liftResult (HttpClient.checkAnswer (endpoint.chat call attempt))

/-- `response.json()["choices"][0]["message"]["content"]`. -/
def contentOf (body : Json) : Except PyError Json := do
  let choices ← body.getItem "choices".toList
  let choice ← choices.getFirst
  let message ← choice.getItem "message".toList
  message.getItem "content".toList

/-- `ValueError("LLM response does not contain items list")`. -/
def noItemsError : PyError := ⟨.value, "LLM response does not contain items list".toList⟩

/-- The items of a parsed answer. -/
def itemsOf : Json → Except PyError (List Json)
  | .dict fields =>
    match fields.lookup "items".toList with
    | some (.list items) => .ok items
    | _ => .error noItemsError
  | .list items => .ok items
  | _ => .error noItemsError

/-- `product_id = str(item.get("id", ""))`. -/
def productIdOf (item : Json) : Except PyError Str := do
  let value ← item.get "id".toList (.str [])
  pure (classifier.json.str value)

/-- `segment_raw = str(item.get("segment", "")).strip()`. -/
def segmentRawOf (item : Json) : Except PyError Str := do
  let value ← item.get "segment".toList (.str [])
  pure (classifier.json.str value).strip

/-- `{p.id for p in batch}`. -/
def idsOf (batch : List Product) : Finset Str := (batch.map Product.id).toFinset

/-- `for item in items: ...`. -/
def parseItems (expectedIds : Finset Str) : List Json → Segments → Except PyError Segments
  | [], result => .ok result
  | item :: items, result => do
    let productId ← classifier.productIdOf item
    let segmentRaw ← classifier.segmentRawOf item
    -- `continue` for a foreign id; a value that is not a segment is Standard
    if productId ∉ expectedIds then parseItems expectedIds items result
    else
      parseItems expectedIds items
        (Function.update result productId (some ((PriceSegment.ofValue segmentRaw).getD .standard)))

/-- `for missing_id in expected_ids - result.keys(): result[missing_id] = PriceSegment.STANDARD`. -/
def fillMissing (expectedIds : Finset Str) (result : Segments) : Segments := fun id =>
  match result id with
  | some segment => some segment
  | none => if id ∈ expectedIds then some .standard else none

/-- `_parse_segments(content, expected_ids)`. -/
def parseSegments (content : Json) (expectedIds : Finset Str) : Except PyError Segments := do
  let parsed ← classifier.json.loadsValue content
  let items ← itemsOf parsed
  let result ← classifier.parseItems expectedIds items fun _ => none
  pure (fillMissing expectedIds result)

/-- `{product.id: PriceSegment.STANDARD for product in batch}`. -/
def fallback (batch : List Product) : Segments := fun id =>
  if id ∈ idsOf batch then some .standard else none

/-- `_classify_batch(batch)`. -/
def classifyBatch (batch : List Product) : LlmM Segments :=
  tryCatch
    (do
      let response ← classifier.httpPost endpoint (classifier.postOf batch)
      let body ← liftResult response
      let content ← liftResult (contentOf body)
      liftResult (classifier.parseSegments content (idsOf batch)))
    -- `except Exception`
    fun exc => if exc.isException then pure (fallback batch) else throw exc

/-- `for batch in ...: segments.update(self._classify_batch(batch))`. -/
def classifyBatches : List (List Product) → Segments → LlmM Segments
  | [], segments => pure segments
  | batch :: batches, segments => do
    let found ← classifier.classifyBatch endpoint batch
    classifyBatches batches fun id => (found id).or (segments id)

/-- `classify(products)`. -/
def classify (products : List Product) : LlmM (List EnrichedProduct) :=
  if products = [] then pure []
  else if classifier.settings.mockLlm then pure (products.map classifier.mockClassify)
  else do
    let batches ← liftResult (chunk products classifier.settings.llmBatchSize)
    let segments ← classifier.classifyBatches endpoint batches fun _ => none
    pure (products.map fun product =>
      { toProduct := product, segment := (segments product.id).getD .standard })

end OpenAiSegmentClassifier

end MarketplacePipeline
