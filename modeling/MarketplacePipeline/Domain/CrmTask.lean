import MarketplacePipeline.Domain.Product

/-!
# CRM tasks and the result of a pipeline run
-/

namespace MarketplacePipeline

structure CrmTaskRequest where
  title : Str
  description : Str
  deriving DecidableEq, Repr

structure CrmTaskOutcome where
  taskId : Str
  title : Str
  mocked : Bool := false
  reused : Bool := false
  idempotencyKey : Option Str := none
  deriving DecidableEq, Repr

/-- What the idempotency store keeps for a key. -/
structure IdempotencyRecord where
  taskId : Str
  title : Str
  idempotencyKey : Str
  createdAt : Timestamp
  deriving DecidableEq, Repr

/-- What `RunPipelineUseCase.execute` returns. -/
structure PipelineResultDTO where
  collectionResult : CollectionResult
  enrichedProducts : List EnrichedProduct
  crmTasks : List CrmTaskOutcome
  outputPath : Option Str := none

end MarketplacePipeline
