import MarketplacePipeline.Collector.MockCatalogCollector
import MarketplacePipeline.Jobs.Executor
import MarketplacePipeline.Pipeline.EnrichedProductFile

/-!
# What a job writes

`Container.runPipelineUseCase` is the use case of a job: the Ozon collector, the classifier, some
CRM gateway, and `JsonEnrichedProductRepository` in the output directory.  `ExecutedWith` says that
an execution of `execute_pipeline_job` runs this use case.
-/

namespace MarketplacePipeline

/-- What the ports of a job change, but for the LLM: what belongs to the gateway, and the files of
the output directory. -/
structure OutputWorld (U : Type) where
  gateway : U
  files : Files Str (List UInt8)

section Lift

variable {U α : Type}

def onGateway (program : EStateM PyError U α) : EStateM PyError (OutputWorld U) α := fun w =>
  match program.run w.gateway with
  | .ok a gateway => .ok a { w with gateway := gateway }
  | .error exc gateway => .error exc { w with gateway := gateway }

def onFiles (program : EStateM PyError (Files Str (List UInt8)) α) :
    EStateM PyError (OutputWorld U) α := fun w =>
  match program.run w.files with
  | .ok a files => .ok a { w with files := files }
  | .error exc files => .error exc { w with files := files }

end Lift

/-- `Container(settings, output_dir=output_dir)`, where `MOCK_PARSER` is off and the jobs are stored
in SQLite. -/
structure Container (U : Type) where
  fetchPage : ℕ → OzonCatalogCollector.FetchOutcome
  ozonHttp : Bool
  classifier : OpenAiSegmentClassifier
  endpoint : LlmEndpoint
  createTask : CrmTaskRequest → EStateM PyError U CrmTaskOutcome
  outputDir : Str
  /-- `settings.collection_target`. -/
  collectionTarget : ℤ

namespace Container

variable {U : Type} (container : Container U)

def ports : OzonPorts (OutputWorld U) where
  fetchPage := container.fetchPage
  ozonHttp := container.ozonHttp
  classifier := container.classifier
  endpoint := container.endpoint
  createTask task := onGateway (container.createTask task)
  save products collection :=
    onFiles (JsonEnrichedProductRepository.save container.outputDir products collection)

/-- `collection_target or self.settings.collection_target`. -/
def targetFor (job : PipelineJob) : ℤ :=
  if job.collectionTarget = 0 then container.collectionTarget else job.collectionTarget

/-- `run_pipeline_use_case(job.collection_target)`. -/
def runPipelineUseCase (job : PipelineJob) : RunPipelineUseCase (PipelineWorld (OutputWorld U)) :=
  ozonPipeline container.ports (container.targetFor job)

/-- `run_pipeline_use_case(job.collection_target)` with `MOCK_PARSER`; a product is built at the
moment that `now` gives for its index. -/
def mockParserUseCase (now : ℕ → Timestamp) (job : PipelineJob) :
    RunPipelineUseCase (PipelineWorld (OutputWorld U)) :=
  { container.runPipelineUseCase job with
    collect := fun target _ => some (pure (MockCatalogCollector.collect now target)) }

/-- The file that the products are written to. -/
def outputPath : Str := JsonEnrichedProductRepository.outputPathIn container.outputDir

end Container

namespace Executor

/-- An execution that makes both updates of its job and runs the use case of the container, whose
collector fetches at most `fuel` pages, from the world `w` to the world `w'`. -/
structure ExecutedWith {U : Type} (env : ExecEnv) (container : Container U) (job : PipelineJob)
    (fuel : ℕ) (w w' : PipelineWorld (OutputWorld U)) : Prop where
  runningUpdate : env.runningUpdate = .ok ()
  built : env.container = .ok ()
  finalUpdate : env.finalUpdate = .ok ()
  useCase : ∃ program, (container.runPipelineUseCase job).execute fuel = some program ∧
    env.useCase = outcomeOf (program.run w) ∧ w' = worldAfter (program.run w)

end Executor

end MarketplacePipeline
