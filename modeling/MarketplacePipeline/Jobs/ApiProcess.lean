import MarketplacePipeline.Jobs.Executor
import MarketplacePipeline.Jobs.SubmitPipelineJob
import MarketplacePipeline.Observability.MetricsRegistry

/-!
# An API process with its thread pool

`POST` requests submit jobs to a `PipelineJobRunner`, whose worker threads take the job ids from the
queue of the pool and execute them.  All of them share the job repository, the queue, the
idempotency store and the metrics.  A step is one call of one of these: a step of
`SubmitPipelineJobUseCase.execute` or the `inc_submitted()` after it, a step of
`execute_pipeline_job`, or one of the two calls of the `on_job_finished` callback.
-/

namespace MarketplacePipeline

/-- The job that a queued call executes. -/
def QueuedCall.jobId : QueuedCall → Str
  | .execute jobId | .executePipelineJobTask jobId => jobId

namespace ApiProcess

/-- A `POST` that passed the prerequisites. -/
structure JobPost where
  job : PipelineJob
  /-- `PipelineJob(collection_target=..., correlation_id=...)`. -/
  pending : job.status = .pending
  /-- The `Idempotency-Key` header. -/
  idempotencyKey : Option Str := none

/-- What the requests and the workers share. -/
structure World (σ : Type) extends SubmitPipelineJobUseCase.ClockedWorld σ where
  metrics : MetricsRegistry
  /-- The jobs of the calls of `execute_pipeline_job` that are over, each with the status that its
  row had then; this belongs to the surroundings. -/
  executed : List (Str × JobStatus) := []

variable {σ ι ω : Type}

/-! ### Requests -/

/-- Where a request stands in `create_job`. -/
inductive RequestPc
  /-- In `SubmitPipelineJobUseCase.execute`. -/
  | handling (pc : SubmitPipelineJobUseCase.SubmitPc)
  /-- `inc_submitted()` is next. -/
  | counting (job : PipelineJob)
  | answered (job : PipelineJob) (isReplay : Bool)
  | raised (exc : PyError)
  deriving DecidableEq

namespace JobPost

/-- The request among those with its key.  A key is not read unless there is one. -/
def requests (post : JobPost) (port : JobIdempotencyStorePort σ) :
    SubmitPipelineJobUseCase.Requests Unit σ where
  port := port
  call := .execute
  key := match post.idempotencyKey with
    | some (c :: cs) => c :: cs
    | _ => " ".toList
  key_ne := by split <;> simp
  job := fun _ => post.job

/-- `if idempotency_key and self._job_idempotency_store is not None`; the store is never `None`. -/
def start (post : JobPost) : RequestPc :=
  match post.idempotencyKey with
  | some (_ :: _) => .handling .storeGet
  | _ => .handling .create

/-- Where control is after a step of the use case. -/
def afterStep : SubmitPipelineJobUseCase.SubmitPc → RequestPc
  | .returned job true => .answered job true
  -- `if not is_replay: metrics.inc_submitted()`
  | .returned job false => .counting job
  | .raised exc => .raised exc
  | pc => .handling pc

/-- The next step of the request, some time after the last step of any request. -/
def step (post : JobPost) (port : JobIdempotencyStorePort σ) (elapsed : ℚ≥0) :
    RequestPc → World σ → RequestPc × World σ
  | .handling pc, w =>
    let moved := SubmitPipelineJobUseCase.clockedStep (post.requests port) elapsed post.job pc
      w.toClockedWorld
    (afterStep moved.1, { w with toClockedWorld := moved.2 })
  | .counting job, w => (.answered job false, { w with metrics := w.metrics.incSubmitted })
  | .answered job isReplay, w => (.answered job isReplay, w)
  | .raised exc, w => (.raised exc, w)

end JobPost

/-! ### Workers -/

/-- Where a worker thread stands. -/
inductive WorkerPc
  | idle
  /-- In `execute_pipeline_job`. -/
  | executing (jobId : Str) (pc : Executor.ExecPc)
  /-- `observe_job_duration_seconds(...)` of the callback is next. -/
  | observing (success : Bool)
  /-- `inc_completed()` or `inc_failed()` of the callback is next. -/
  | counting (success : Bool)
  deriving DecidableEq

/-- What `on_job_finished` is called with, if it is, once the execution has left its last update. -/
def reported (env : Executor.ExecEnv) : Executor.ExecPc → Option Bool
  | .settling job =>
    match env.finalUpdate with
    | .error _ => none
    | .ok _ => if env.hasCallback then some (Executor.runUseCase env.useCase job).2.1 else none
  | _ => none

/-- Where a worker is after `execute_pipeline_job`: an exception that leaves the function ends in
the future of the call. -/
def afterExecution (env : Executor.ExecEnv) (pc : Executor.ExecPc) : WorkerPc :=
  match reported env pc with
  | some success => .observing success
  | none => .idle

/-- The next step of a worker. -/
def workerStep (env : Str → Executor.ExecEnv) : WorkerPc → World σ → WorkerPc × World σ
  | .idle, w =>
    match w.queue with
    | [] => (.idle, w)
    | call :: queue => (.executing call.jobId .delivered, { w with queue })
  | .executing jobId pc, w =>
    let moved := Executor.execStep (env jobId) jobId pc w.repository
    match moved.1 with
    | .left =>
      (afterExecution (env jobId) pc,
        { w with
          repository := moved.2
          executed := w.executed ++
            (moved.2.get jobId).toList.map fun row => (jobId, row.status) })
    | pc => (.executing jobId pc, { w with repository := moved.2 })
  | .observing success, w =>
    (.counting success, { w with metrics := w.metrics.observeJobDuration })
  | .counting success, w =>
    (.idle, { w with metrics := if success then w.metrics.incCompleted else w.metrics.incFailed })

/-! ### The process -/

/-- The world, and where every request and every worker stands. -/
structure State (ι ω σ : Type) where
  world : World σ
  request : ι → RequestPc
  worker : ω → WorkerPc

/-- Who takes the next step. -/
inductive Move (ι ω : Type)
  | request (i : ι) (elapsed : ℚ≥0)
  | worker (k : ω)

variable [DecidableEq ι] [DecidableEq ω]

/-- A step of the process. -/
def step (posts : ι → JobPost) (port : JobIdempotencyStorePort σ) (env : Str → Executor.ExecEnv) :
    Move ι ω → State ι ω σ → State ι ω σ
  | .request i elapsed, s =>
    let moved := (posts i).step port elapsed (s.request i) s.world
    { s with world := moved.2, request := Function.update s.request i moved.1 }
  | .worker k, s =>
    let moved := workerStep env (s.worker k) s.world
    { s with world := moved.2, worker := Function.update s.worker k moved.1 }

/-- The requests have arrived, the workers are idle. -/
def start (posts : ι → JobPost) (w : World σ) : State ι ω σ where
  world := w
  request i := (posts i).start
  worker _ := .idle

end ApiProcess

end MarketplacePipeline
