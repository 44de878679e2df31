import MarketplacePipeline.Pipeline.Equiv.OpenAiSegmentClassifier
import MarketplacePipeline.Python.JsonLoads

/-!
# Batches on their own

What `classify` returns and which POSTs it makes, for any answers of the endpoint.  The segment of a
product is `label`, which looks at the answer to the POST of its batch only: `classify` with
another endpoint that gives this answer too returns the same product at its position
(`Classified.isolated`).
-/

namespace MarketplacePipeline.OpenAiSegmentClassifier

open Chunks

/-- A product in a POST. -/
def itemOf (p : Product) : LlmItem := { id := p.id, name := p.name, description := p.description }

/-- The outcome of `classify(products)` after the POSTs `before`. -/
structure Classified (classifier : OpenAiSegmentClassifier) (endpoint : LlmEndpoint)
    (products : List Product) (before : List LlmPost) (enriched : List EnrichedProduct)
    (posts : List LlmPost) : Prop where
  /-- One POST for each batch, rounded up. -/
  length_posts : posts.length =
    (products.length + classifier.settings.llmBatchSize.toNat - 1) /
      classifier.settings.llmBatchSize.toNat
  /-- Every product stands in one POST, once. -/
  items_posts : (posts.map LlmPost.items).flatten = products.map itemOf
  mem_post : ∀ i product, products[i]? = some product →
    ∃ post, posts[i / classifier.settings.llmBatchSize.toNat]? = some post ∧
      itemOf product ∈ post.items
  products_eq : enriched.map EnrichedProduct.toProduct = products
  segment_eq : ∀ i product, products[i]? = some product →
    enriched[i]?.map EnrichedProduct.segment = some (classifier.label endpoint
      (before.length + i / classifier.settings.llmBatchSize.toNat) product.id)
  isolated : ∀ (other : LlmEndpoint) enriched' posts',
    (classifier.classify other products).run before = .ok enriched' posts' →
    ∀ i, other.chat (before.length + i / classifier.settings.llmBatchSize.toNat) =
        endpoint.chat (before.length + i / classifier.settings.llmBatchSize.toNat) →
      enriched'[i]? = enriched[i]?

variable {classifier : OpenAiSegmentClassifier} {endpoint other : LlmEndpoint} {call i : ℕ}
  {products : List Product} {product : Product}

/-- The segment depends on the answers to one POST. -/
theorem label_congr (h : other.chat call = endpoint.chat call) (id : Str) :
    classifier.label other call id = classifier.label endpoint call id := by
  unfold label given entries answerItems answer
  rw [h]

theorem items_postOf (batch : List Product) :
    (classifier.postOf batch).items = batch.map itemOf := rfl

/-- **`classify` batch by batch**: whatever the endpoint answers, it does not raise, makes one POST
for each batch, and keeps the products; each gets the segment that the answer for its own batch
gives it. -/
theorem classify_correct (hlive : classifier.settings.mockLlm = false)
    (hsize : 1 ≤ classifier.settings.llmBatchSize) (endpoint : LlmEndpoint)
    (hnodup : (products.map Product.id).Nodup) (before : List LlmPost) :
    ∃ enriched posts, (classifier.classify endpoint products).run before =
        .ok enriched (before ++ posts) ∧
      Classified classifier endpoint products before enriched posts := by
  have hpos : 0 < classifier.settings.llmBatchSize.toNat := by omega
  refine ⟨_, _, run_classify classifier endpoint hlive hsize hnodup before, ?_⟩
  constructor
  case length_posts => rw [List.length_map, length_chunks]
  case items_posts =>
    have hitems : ((chunks classifier.settings.llmBatchSize.toNat products).map
        classifier.postOf).map LlmPost.items =
        (chunks classifier.settings.llmBatchSize.toNat products).map (List.map itemOf) := by
      rw [List.map_map]
      rfl
    rw [hitems, ← List.map_flatten, flatten_chunks hpos]
  case mem_post =>
    intro i product hget
    obtain ⟨batch, hbatch, hmem⟩ := mem_of_getElem?_chunks hpos hget
    refine ⟨classifier.postOf batch, ?_, ?_⟩
    · rw [List.getElem?_map, hbatch, Option.map_some]
    · rw [items_postOf]
      exact List.mem_map_of_mem hmem
  case products_eq => exact map_toProduct_enrich classifier endpoint before.length products
  case segment_eq =>
    intro i product hget
    rw [getElem?_enrich, hget]
    rfl
  case isolated =>
    intro other enriched' posts' hrun i hsame
    rw [run_classify classifier other hlive hsize hnodup before] at hrun
    obtain ⟨rfl, -⟩ := EStateM.Result.ok.inj hrun
    rw [getElem?_enrich, getElem?_enrich]
    apply Option.map_congr
    intro product _
    rw [label_congr hsame]

/-! ### A list of three products -/

/-- The classifier of a deployment with batches of two. -/
def twoByTwo : OpenAiSegmentClassifier where
  settings := { llmBatchSize := 2, httpMaxRetries := 1 }
  json := JsonLoads.jsonText id (fun _ => "Expecting value: line 1 column 1 (char 0)".toList)
    fun _ => []
  lower text := text.map Char.toLower

/-- `{"choices": [{"message": {"content": text}}]}`. -/
def completion (text : Str) : Json :=
  .dict [("choices".toList,
    .list [.dict [("message".toList, .dict [("content".toList, .str text)])]])]

/-- The segments of the first two products. -/
def firstSegments : Str :=
  ("[\x7b\"id\": \"1\", \"segment\": \"Премиум\"\x7d, " ++
    "\x7b\"id\": \"2\", \"segment\": \" Эконом\"\x7d]").toList

/-- An endpoint that is down after the first batch. -/
def endpointDown : LlmEndpoint where
  chat call _ :=
    if call = 0 then .response 200 (.ok (completion firstSegments)) "200".toList
    else .response 503 (.error ⟨.value, "Expecting value".toList⟩) "503".toList
  raised_isException call attempt exc herror := by split_ifs at herror
  unreadable_isException call attempt status exc message herror := by
    split_ifs at herror
    · cases herror
    · cases herror
      rfl

/-- A phone in the catalog. -/
def listedPhone (id : Str) : Product where
  id := id
  name := id
  price := 100
  url := []
  category := "Смартфоны".toList
  collectedAt := 0

/-- The products of the first batch have their segments, the one of the second batch is Standard. -/
theorem classify_correct_down :
    ∃ enriched posts, (twoByTwo.classify endpointDown
        [listedPhone ['1'], listedPhone ['2'], listedPhone ['3']]).run [] =
        .ok enriched ([] ++ posts) ∧
      Classified twoByTwo endpointDown [listedPhone ['1'], listedPhone ['2'], listedPhone ['3']] []
        enriched posts ∧
      enriched.map EnrichedProduct.segment = [.premium, .economy, .standard] := by
  have hnodup :
      ([listedPhone ['1'], listedPhone ['2'], listedPhone ['3']].map Product.id).Nodup := by decide
  obtain ⟨enriched, posts, hrun, hclassified⟩ :=
    @classify_correct twoByTwo _ rfl (by decide) endpointDown hnodup []
  refine ⟨enriched, posts, hrun, hclassified, ?_⟩
  rw [run_classify twoByTwo endpointDown rfl (by decide) (by decide)] at hrun
  obtain ⟨rfl, -⟩ := EStateM.Result.ok.inj hrun
  decide +kernel

end MarketplacePipeline.OpenAiSegmentClassifier
