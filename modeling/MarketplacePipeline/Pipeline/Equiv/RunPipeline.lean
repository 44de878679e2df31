import MarketplacePipeline.Collector.Equiv.OzonCatalogCollector
import MarketplacePipeline.Pipeline.Equiv.CrmTaskFactory
import MarketplacePipeline.Pipeline.Equiv.OpenAiSegmentClassifier
import MarketplacePipeline.Pipeline.RunPipeline

/-!
# A run of the pipeline

Whatever the pages and the LLM do, once the products are collected the run goes through to the end:
it keeps the products, creates the tasks that `buildTasks` gives for them, and saves them.  Only
products to which the answer of the LLM gave the segment of a task are in that task
(`execute_delivers`).
-/

namespace MarketplacePipeline.RunPipelineUseCase

open OzonCatalogCollector CrmTaskFactory ProductSelectionService

variable {V : Type}

/-! ### What a run delivers -/

/-- The gateway raises for a task of the products, or the repository raises after it. -/
def PortRaises (ports : OzonPorts V) (enriched : List EnrichedProduct)
    (collection : CollectionResult) (v : V) : Prop :=
  (∃ exc v', ((buildTasks enriched).mapM ports.createTask).run v = .error exc v') ∨
    ∃ outcomes v₁ exc v', ((buildTasks enriched).mapM ports.createTask).run v = .ok outcomes v₁ ∧
      (ports.save enriched collection).run v₁ = .error exc v'

/-- The answer of the LLM for the batch of a product gave it its segment; the first POST of the run
has number `call`. -/
def GivenByLlm (ports : OzonPorts V) (call : ℕ) (enriched : List EnrichedProduct)
    (p : EnrichedProduct) : Prop :=
  ∃ i, enriched[i]? = some p ∧
    ports.classifier.given ports.endpoint
      (call + i / ports.classifier.settings.llmBatchSize.toNat) p.id = some p.segment

/-- What a run that starts in the world `w` and ends in `w'` returns for a collection. -/
structure Delivers (ports : OzonPorts V) (collection : CollectionResult) (w : PipelineWorld V)
    (result : PipelineResultDTO) (w' : PipelineWorld V) : Prop where
  collected : result.collectionResult = collection
  products_eq : result.enrichedProducts.map EnrichedProduct.toProduct = collection.products
  nodup : (result.enrichedProducts.map fun p => p.id).Nodup
  outcomes_length : result.crmTasks.length =
    (if ∃ p ∈ result.enrichedProducts, p.segment = .premium then 1 else 0) +
      if ∃ p ∈ result.enrichedProducts, p.segment = .economy then 1 else 0
  /-- Exactly the tasks of the enriched products are created, and then exactly these products are
  saved with the collection. -/
  ports_calls : ∃ v path,
    ((buildTasks result.enrichedProducts).mapM ports.createTask).run w.rest =
        .ok result.crmTasks v ∧
      (ports.save result.enrichedProducts collection).run v = .ok path w'.rest ∧
      result.outputPath = some path
  premium_given : ∀ p ∈ topPremiumByPrice result.enrichedProducts,
    p ∈ result.enrichedProducts ∧ p.segment = .premium ∧
      GivenByLlm ports w.llmPosts.length result.enrichedProducts p
  economy_given : ∀ p ∈ topEconomyByPrice result.enrichedProducts,
    p ∈ result.enrichedProducts ∧ p.segment = .economy ∧
      GivenByLlm ports w.llmPosts.length result.enrichedProducts p

/-! ### The ports in the world of the pipeline -/

variable {ports : OzonPorts V} {α : Type}

theorem run_onLlm {program : LlmM α} {w : PipelineWorld V} {a : α} {posts : List LlmPost}
    (h : program.run w.llmPosts = .ok a posts) :
    (onLlm program).run w = .ok a { w with llmPosts := posts } := by
  show onLlm program w = _
  unfold onLlm
  rw [h]

theorem run_onRest {program : EStateM PyError V α} {w : PipelineWorld V} {a : α} {rest : V}
    (h : program.run w.rest = .ok a rest) :
    (onRest program).run w = .ok a { w with rest := rest } := by
  show onRest program w = _
  unfold onRest
  rw [h]

theorem run_onRest_error {program : EStateM PyError V α} {w : PipelineWorld V} {exc : PyError}
    {rest : V} (h : program.run w.rest = .error exc rest) :
    (onRest program).run w = .error exc { w with rest := rest } := by
  show onRest program w = _
  unfold onRest
  rw [h]

theorem onRest_bind {β : Type} (program : EStateM PyError V α) (next : α → EStateM PyError V β) :
    onRest (program >>= next) = onRest program >>= fun a => onRest (next a) := by
  funext w
  show (onRest (program >>= next)).run w = (onRest program >>= fun a => onRest (next a)).run w
  rw [EStateM.run_bind]
  cases hrun : program.run w.rest with
  | ok a rest =>
    have hbind : (program >>= next).run w.rest = (next a).run rest := by
      rw [EStateM.run_bind, hrun]
    rw [run_onRest hrun]
    show onRest (program >>= next) w = onRest (next a) { w with rest := rest }
    unfold onRest
    rw [hbind]
  | error exc rest =>
    have hbind : (program >>= next).run w.rest = .error exc rest := by
      rw [EStateM.run_bind, hrun]
    rw [run_onRest_error hrun, run_onRest_error hbind]

/-- The calls of the gateway, in the world of the pipeline. -/
theorem mapM_onRest (createTask : CrmTaskRequest → EStateM PyError V CrmTaskOutcome)
    (tasks : List CrmTaskRequest) :
    (tasks.mapM fun task => onRest (createTask task)) = onRest (tasks.mapM createTask) := by
  induction tasks with
  | nil => rfl
  | cons task tasks ih =>
    rw [List.mapM_cons, List.mapM_cons, onRest_bind, ih]
    congr 1
    funext outcome
    rw [onRest_bind]
    rfl

/-- Each task gets an outcome. -/
theorem length_of_run_mapM {createTask : CrmTaskRequest → EStateM PyError V CrmTaskOutcome}
    {tasks : List CrmTaskRequest} {outcomes : List CrmTaskOutcome} {v v' : V}
    (h : (tasks.mapM createTask).run v = .ok outcomes v') : outcomes.length = tasks.length := by
  induction tasks generalizing v v' outcomes with
  | nil =>
    have hpure : (EStateM.Result.ok [] v : EStateM.Result PyError V _) = .ok outcomes v' := h
    injection hpure with hnil
    rw [← hnil]
    rfl
  | cons task tasks ih =>
    rw [List.mapM_cons, run_bind_eq_ok_iff] at h
    obtain ⟨outcome, v₁, -, hnext⟩ := h
    obtain ⟨rest, v₂, hrest, hpure⟩ := run_bind_eq_ok_iff.mp hnext
    injection hpure with hlist
    rw [← hlist, List.length_cons, List.length_cons, ih hrest]

/-- Ports that always return do not raise. -/
theorem not_portRaises (hcreate : ∀ task v, ∃ outcome v',
      (ports.createTask task).run v = .ok outcome v')
    (hsave : ∀ products collection v, ∃ path v',
      (ports.save products collection).run v = .ok path v')
    (enriched : List EnrichedProduct) (collection : CollectionResult) (v : V) :
    ¬ PortRaises ports enriched collection v := by
  have hcreated : ∀ (tasks : List CrmTaskRequest) v, ∃ outcomes v',
      (tasks.mapM ports.createTask).run v = .ok outcomes v' := by
    intro tasks
    induction tasks with
    | nil => exact fun v => ⟨[], v, rfl⟩
    | cons task tasks ih =>
      intro v
      obtain ⟨outcome, v₁, hfirst⟩ := hcreate task v
      obtain ⟨outcomes, v₂, hrest⟩ := ih v₁
      refine ⟨outcome :: outcomes, v₂, ?_⟩
      rw [List.mapM_cons, run_bind_eq_ok_iff]
      exact ⟨outcome, v₁, hfirst, run_bind_eq_ok_iff.mpr ⟨outcomes, v₂, hrest, rfl⟩⟩
  rintro (⟨exc, v', herror⟩ | ⟨outcomes, v₁, exc, v', -, herror⟩)
  · obtain ⟨outcomes, v₁, hrun⟩ := hcreated (buildTasks enriched) v
    rw [hrun] at herror
    cases herror
  · obtain ⟨path, v₂, hrun⟩ := hsave enriched collection v₁
    rw [hrun] at herror
    cases herror

/-! ### The enriched products -/

/-- A product that is not Standard was given its segment. -/
theorem givenByLlm_enrich {call : ℕ} {products : List Product} {p : EnrichedProduct}
    (hp : p ∈ ports.classifier.enrich ports.endpoint call products)
    (hsegment : p.segment ≠ .standard) :
    GivenByLlm ports call (ports.classifier.enrich ports.endpoint call products) p := by
  obtain ⟨i, hi⟩ := List.getElem?_of_mem hp
  refine ⟨i, hi, ?_⟩
  unfold OpenAiSegmentClassifier.enrich at hi
  rw [List.getElem?_mapIdx, Option.map_eq_some_iff] at hi
  obtain ⟨product, -, rfl⟩ := hi
  unfold OpenAiSegmentClassifier.label at hsegment ⊢
  cases hgiven : ports.classifier.given ports.endpoint
    (call + i / ports.classifier.settings.llmBatchSize.toNat) product.id with
  | none =>
    rw [hgiven] at hsegment
    exact absurd rfl hsegment
  | some segment => rfl

/-! ### A run -/

/-- The ports are called one after another. -/
theorem run_afterCollect {collection : CollectionResult} {enriched : List EnrichedProduct}
    {posts : List LlmPost} {outcomes : List CrmTaskOutcome} {v v' : V} {path : Str}
    (target : ℤ) {w : PipelineWorld V}
    (hclassify : (ports.classifier.classify ports.endpoint collection.products).run w.llmPosts =
      .ok enriched posts)
    (hcreated : ((buildTasks enriched).mapM ports.createTask).run w.rest = .ok outcomes v)
    (hsaved : (ports.save enriched collection).run v = .ok path v') :
    ((ozonPipeline ports target).afterCollect collection).run w =
      .ok ⟨collection, enriched, outcomes, some path⟩ ⟨posts, v'⟩ := by
  have henriched : ((ozonPipeline ports target).classify collection.products).run w =
      .ok enriched { w with llmPosts := posts } := run_onLlm hclassify
  have htasks : ((buildTasks enriched).mapM (ozonPipeline ports target).createTask).run
      { w with llmPosts := posts } = .ok outcomes ⟨posts, v⟩ := by
    show ((buildTasks enriched).mapM fun task => onRest (ports.createTask task)).run _ = _
    rw [mapM_onRest]
    exact run_onRest hcreated
  have hpath : ((ozonPipeline ports target).save enriched collection).run ⟨posts, v⟩ =
      .ok path ⟨posts, v'⟩ := run_onRest hsaved
  unfold afterCollect
  refine run_bind_eq_ok_iff.mpr ⟨enriched, _, henriched, ?_⟩
  refine run_bind_eq_ok_iff.mpr ⟨outcomes, _, htasks, ?_⟩
  exact run_bind_eq_ok_iff.mpr ⟨path, _, hpath, rfl⟩

/-- What is delivered for the enriched products. -/
theorem delivers_enrich {collection : CollectionResult} {enriched : List EnrichedProduct}
    {posts : List LlmPost} {outcomes : List CrmTaskOutcome} {v v' : V} {path : Str}
    {w : PipelineWorld V} (hnodup : (collection.products.map Product.id).Nodup)
    (henriched : enriched =
      ports.classifier.enrich ports.endpoint w.llmPosts.length collection.products)
    (hcreated : ((buildTasks enriched).mapM ports.createTask).run w.rest = .ok outcomes v)
    (hsaved : (ports.save enriched collection).run v = .ok path v') :
    Delivers ports collection w ⟨collection, enriched, outcomes, some path⟩ ⟨posts, v'⟩ := by
  have hproducts : enriched.map EnrichedProduct.toProduct = collection.products := by
    rw [henriched]
    exact OpenAiSegmentClassifier.map_toProduct_enrich _ _ _ _
  have hgiven : ∀ p ∈ enriched, p.segment ≠ .standard →
      GivenByLlm ports w.llmPosts.length enriched p := by
    rw [henriched]
    exact fun p => givenByLlm_enrich
  refine ⟨rfl, hproducts, ?_, ?_, ⟨v, path, hcreated, hsaved, rfl⟩, ?_, ?_⟩
  · have hids : (enriched.map fun p => p.id) = collection.products.map Product.id := by
      rw [← hproducts, List.map_map]
      rfl
    show (enriched.map fun p => p.id).Nodup
    rw [hids]
    exact hnodup
  · exact (length_of_run_mapM hcreated).trans (length_buildTasks enriched)
  · intro p hp
    obtain ⟨hmem, hsegment⟩ := mem_topPremiumByPrice hp
    exact ⟨hmem, hsegment, hgiven p hmem (by rw [hsegment]; decide)⟩
  · intro p hp
    obtain ⟨hmem, hsegment⟩ := mem_topEconomyByPrice hp
    exact ⟨hmem, hsegment, hgiven p hmem (by rw [hsegment]; decide)⟩

/-- The run after a collection with distinct ids. -/
theorem afterCollect_delivers {collection : CollectionResult} (target : ℤ)
    (hnodup : (collection.products.map Product.id).Nodup)
    (hlive : ports.classifier.settings.mockLlm = false)
    (hsize : 1 ≤ ports.classifier.settings.llmBatchSize)
    (w : PipelineWorld V)
    (hports : ∀ enriched posts, (ports.classifier.classify ports.endpoint
      collection.products).run w.llmPosts = .ok enriched posts →
        ¬ PortRaises ports enriched collection w.rest) :
    ∃ result w', ((ozonPipeline ports target).afterCollect collection).run w = .ok result w' ∧
      Delivers ports collection w result w' := by
  have hclassify := ports.classifier.run_classify ports.endpoint hlive hsize hnodup w.llmPosts
  have hquiet := hports _ _ hclassify
  generalize henriched : ports.classifier.enrich ports.endpoint w.llmPosts.length
    collection.products = enriched at hclassify hquiet
  unfold PortRaises at hquiet
  cases hcreated : ((buildTasks enriched).mapM ports.createTask).run w.rest with
  | error exc v => exact absurd (Or.inl ⟨exc, v, hcreated⟩) hquiet
  | ok outcomes v =>
    cases hsaved : (ports.save enriched collection).run v with
    | error exc v' => exact absurd (Or.inr ⟨outcomes, v, exc, v', hcreated, hsaved⟩) hquiet
    | ok path v' =>
      have hrun := run_afterCollect target hclassify hcreated hsaved
      exact ⟨_, _, hrun, delivers_enrich hnodup henriched.symm hcreated hsaved⟩

/-- **A run of the pipeline**: whenever the collector returns a collection, whatever the pages and
the LLM did, if the gateway and the repository do not raise. -/
theorem execute_delivers {target : ℤ} {fuel : ℕ} {c : Collection} {collection : CollectionResult}
    (hcollect :
      OzonCatalogCollector.collect ports.fetchPage ports.ozonHttp target fuel = some c)
    (hreturns : c.outcome = .ok collection)
    (hlive : ports.classifier.settings.mockLlm = false)
    (hsize : 1 ≤ ports.classifier.settings.llmBatchSize)
    (w : PipelineWorld V)
    (hports : ∀ enriched posts, (ports.classifier.classify ports.endpoint
      collection.products).run w.llmPosts = .ok enriched posts →
        ¬ PortRaises ports enriched collection w.rest) :
    ∃ program result w', (ozonPipeline ports target).execute fuel = some program ∧
      program.run w = .ok result w' ∧ Delivers ports collection w result w' := by
  have hnodup : (collection.products.map Product.id).Nodup := by
    obtain ⟨exit, n, hexit, hreq, hout⟩ := collect_exit hcollect
    rw [hreturns] at hout
    cases exit with
    | raised exc => cases hout
    | finished products degraded errorMessage =>
      obtain rfl := Except.ok.inj hout
      exact (hexit.collectedAs hreq).nodup
  obtain ⟨result, w', hrun, hdelivers⟩ :=
    afterCollect_delivers target hnodup hlive hsize w hports
  have hexecute : (ozonPipeline ports target).execute fuel =
      some (liftResult c.outcome >>= (ozonPipeline ports target).afterCollect) := by
    unfold execute
    show (Option.map _ (OzonCatalogCollector.collect ports.fetchPage ports.ozonHttp target
      fuel)).map _ = _
    rw [hcollect]
    rfl
  refine ⟨_, result, w', hexecute, ?_, hdelivers⟩
  rw [hreturns]
  exact run_bind_eq_ok_iff.mpr ⟨collection, w, rfl, hrun⟩

/-! ### A run with a broken catalog and a broken LLM -/

/-- The content of an answer, with a segment for 101 and something else for 102. -/
def partialContent : Str :=
  ("\x7b\"items\":[\x7b\"id\":\"101\",\"segment\":\"Премиум\"\x7d," ++
    "\x7b\"id\":\"102\",\"segment\":\"Люкс\"\x7d]\x7d").toList

def partialItems : Json :=
  .dict [("items".toList, .list [
    .dict [("id".toList, .str "101".toList), ("segment".toList, .str "Премиум".toList)],
    .dict [("id".toList, .str "102".toList), ("segment".toList, .str "Люкс".toList)]])]

/-- The classifier, with two products in a batch. -/
def pairClassifier : OpenAiSegmentClassifier where
  settings := { llmBatchSize := 2, httpMaxRetries := 1 }
  json :=
    { loads := fun text => if text = partialContent then .ok partialItems
        else .error ⟨.value, "Expecting value: line 1 column 1 (char 0)".toList⟩
      repr := fun _ => []
      loads_isException := fun text exc herror => by
        split_ifs at herror
        cases herror
        rfl }
  lower text := text.map Char.toLower

/-- The first POST is answered, the others time out. -/
def timeoutEndpoint : LlmEndpoint where
  chat call _ :=
    if call = 0 then
      .response 200 (.ok (.dict [("choices".toList, .list [
        .dict [("message".toList, .dict [("content".toList, .str partialContent)])]])])) []
    else .raised ⟨.transport, "The read operation timed out".toList⟩
  raised_isException call attempt exc herror := by
    split_ifs at herror
    cases herror
    rfl
  unreadable_isException call attempt status exc message herror := by
    split_ifs at herror
    cases herror

/-- The ports of a run with `MOCK_CRM`. -/
def mockPorts : OzonPorts (CrmWorld (Str → Option IdempotencyRecord)) where
  fetchPage := brokenCatalog
  ozonHttp := true
  classifier := pairClassifier
  endpoint := timeoutEndpoint
  createTask task := mockGateway.createTask (AmoCrmGateway.pagedAccount fun _ =>
    AmoCrmGateway.returned []) task
  save _ _ := pure "output/enriched_products.json".toList

theorem execute_delivers_brokenCatalog :
    ∃ c collection, OzonCatalogCollector.collect brokenCatalog true 10 3 = some c ∧
      c.outcome = .ok collection ∧
      ∃ program result w', (ozonPipeline mockPorts 10).execute 3 = some program ∧
        program.run ⟨[], AmoCrmGateway.accountOf []⟩ = .ok result w' ∧
        Delivers mockPorts collection ⟨[], AmoCrmGateway.accountOf []⟩ result w' :=
  ⟨_, _, rfl, rfl, execute_delivers rfl rfl rfl (by decide)
    ⟨[], AmoCrmGateway.accountOf []⟩ fun enriched _ _ =>
      not_portRaises (fun task v => AmoCrmGateway.createTask_returns_of_mock _ _ rfl task v)
        (fun _ _ v => ⟨_, v, rfl⟩) enriched _ _⟩

end MarketplacePipeline.RunPipelineUseCase
