import MarketplacePipeline.Collector.OzonCatalogCollector
import MarketplacePipeline.Pipeline.CrmTaskFactory
import MarketplacePipeline.Pipeline.OpenAiSegmentClassifier

/-!
# `RunPipelineUseCase`

`execute` collects the products, classifies them, creates the CRM tasks and saves the products.  The
four ports are programs on a world `W`; a call of `collect` may need any number of page fetches, and
has `fuel` of them.  `ozonPipeline` is the use case with the Ozon collector, the LLM classifier, and
any CRM gateway and product repository.
-/

namespace MarketplacePipeline

/-- The use case and its ports. -/
structure RunPipelineUseCase (W : Type) where
  collect : (target : ℤ) → (fuel : ℕ) → Option (EStateM PyError W CollectionResult)
  classify : List Product → EStateM PyError W (List EnrichedProduct)
  createTask : CrmTaskRequest → EStateM PyError W CrmTaskOutcome
  save : List EnrichedProduct → CollectionResult → EStateM PyError W Str
  collectionTarget : ℤ

namespace RunPipelineUseCase

/-- `execute()` after the collection. -/
def afterCollect {W : Type} (pipeline : RunPipelineUseCase W)
    (collection : CollectionResult) : EStateM PyError W PipelineResultDTO := do
  let enriched ← pipeline.classify collection.products
  let taskRequests := CrmTaskFactory.buildTasks enriched
  let crmOutcomes ← taskRequests.mapM pipeline.createTask
  let outputPath ← pipeline.save enriched collection
  pure {
    collectionResult := collection
    enrichedProducts := enriched
    crmTasks := crmOutcomes
    outputPath := some outputPath }

/-- `execute()`, where `collect` makes at most `fuel` page fetches. -/
def execute {W : Type} (pipeline : RunPipelineUseCase W) (fuel : ℕ) :
    Option (EStateM PyError W PipelineResultDTO) :=
  (pipeline.collect pipeline.collectionTarget fuel).map fun collect => do
    let collection ← collect
    pipeline.afterCollect collection

end RunPipelineUseCase

/-! ### The pipeline on Ozon -/

/-- The POSTs to the LLM, and whatever the gateway and the repository use. -/
structure PipelineWorld (V : Type) where
  llmPosts : List LlmPost
  rest : V

section Lift

variable {V α : Type}

/-- A program of the classifier, in the world of the pipeline. -/
def onLlm (program : LlmM α) : EStateM PyError (PipelineWorld V) α := fun w =>
  match program.run w.llmPosts with
  | .ok a posts => .ok a { w with llmPosts := posts }
  | .error exc posts => .error exc { w with llmPosts := posts }

/-- A program of the gateway or of the repository, in the world of the pipeline. -/
def onRest (program : EStateM PyError V α) : EStateM PyError (PipelineWorld V) α := fun w =>
  match program.run w.rest with
  | .ok a rest => .ok a { w with rest := rest }
  | .error exc rest => .error exc { w with rest := rest }

end Lift

/-- The ports of the Ozon pipeline. -/
structure OzonPorts (V : Type) where
  fetchPage : ℕ → OzonCatalogCollector.FetchOutcome
  /-- Whether the collector owns an `OzonHttpClient`. -/
  ozonHttp : Bool
  classifier : OpenAiSegmentClassifier
  endpoint : LlmEndpoint
  createTask : CrmTaskRequest → EStateM PyError V CrmTaskOutcome
  save : List EnrichedProduct → CollectionResult → EStateM PyError V Str

/-- The use case with these ports. -/
def ozonPipeline {V : Type} (ports : OzonPorts V) (collectionTarget : ℤ) :
    RunPipelineUseCase (PipelineWorld V) where
  collect target fuel :=
    (OzonCatalogCollector.collect ports.fetchPage ports.ozonHttp target fuel).map
      fun collection => liftResult collection.outcome
  classify products := onLlm (ports.classifier.classify ports.endpoint products)
  createTask task := onRest (ports.createTask task)
  save products collection := onRest (ports.save products collection)
  collectionTarget := collectionTarget

end MarketplacePipeline
