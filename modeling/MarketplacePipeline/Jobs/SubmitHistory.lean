import MarketplacePipeline.Jobs.SubmitPipelineJob

/-!
# Histories of submissions

Requests are handled one at a time, each with an idempotency key of its own or none; between them
the workers update the rows of their jobs.  A `SubmitRecord` is one request with what it came to.
-/

namespace MarketplacePipeline.SubmitPipelineJobUseCase

variable {σ : Type}

/-- One call of `execute`. -/
structure SubmitRecord where
  idempotencyKey : Option Str
  job : PipelineJob
  time : ℚ
  before : JobTable
  after : JobTable
  outcome : Except PyError (PipelineJob × Bool)

/-- What happens next. -/
inductive SubmitEvent
  /-- `execute(job, idempotency_key=...)`. -/
  | submit (idempotencyKey : Option Str) (job : PipelineJob)
  /-- A worker calls `job_repository.update(job)`. -/
  | update (job : PipelineJob)

/-- The world, the clock and the requests so far. -/
structure SubmitLog (σ : Type) extends SubmitWorld σ where
  clock : ℚ
  records : List SubmitRecord := []

/-- The next event, some time after the last one. -/
def eventStep (port : JobIdempotencyStorePort σ) (call : Str → QueuedCall)
    (event : SubmitEvent × ℚ≥0) (log : SubmitLog σ) : SubmitLog σ :=
  let now := log.clock + event.2
  match event.1 with
  | .submit idempotencyKey job =>
    let result :=
      (execute (some port) (submitWith call {}) now job idempotencyKey).run log.toSubmitWorld
    { toSubmitWorld := worldAfter result
      clock := now
      records := log.records ++ [{
        idempotencyKey := idempotencyKey
        job := job
        time := now
        before := log.repository
        after := (worldAfter result).repository
        outcome := outcomeOf result }] }
  | .update job => { log with repository := log.repository.update job, clock := now }

/-- The job that an event submits. -/
def SubmitEvent.submitted : SubmitEvent → Option PipelineJob
  | .submit _ job => some job
  | .update _ => none

end MarketplacePipeline.SubmitPipelineJobUseCase
