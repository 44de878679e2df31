import MarketplacePipeline.Jobs.JobIdempotencyStore
import MarketplacePipeline.Jobs.JobTable
import MarketplacePipeline.Python.Error
import MarketplacePipeline.Algorithm.Schedule
import Mathlib.Algebra.Field.Rat

/-!
# Submitting a pipeline job

`SubmitPipelineJobUseCase.execute` returns the job that an idempotency key already stands for, or
reserves the key and submits a new job: `repository.create`, then the enqueue call of the runner.
The clock is constant during one call of `execute`.

`SubmitState` is the same code as a system of requests with one key: any number of them share the
store and the job repository, and a step of a request is one of its calls of the store, of the
repository or of the queue, made some time after the previous step of the system.
-/

namespace MarketplacePipeline

/-- A call that waits for a worker. -/
inductive QueuedCall
  /-- `PipelineJobRunner._execute(job_id)` on the thread pool. -/
  | execute (jobId : Str)
  /-- `execute_pipeline_job_task(job_id)` on the Celery queue. -/
  | executePipelineJobTask (jobId : Str)
  deriving DecidableEq

/-- What a submission touches. -/
structure SubmitWorld (σ : Type) where
  store : σ
  repository : JobTable
  queue : List QueuedCall

abbrev SubmitM (σ : Type) := EStateM PyError (SubmitWorld σ)

/-- The outcomes of the two calls of `job_runner.submit`. -/
structure RunnerEnv where
  /-- `job_repository.create(job)`. -/
  create : Except PyError Unit := .ok ()
  /-- `executor.submit(...)` or `task.delay(...)`. -/
  enqueue : Except PyError Unit := .ok ()

/-- What `create` raises for an id that is taken, with the text of SQLite. -/
def integrityError : PyError := ⟨.integrity, "UNIQUE constraint failed: pipeline_jobs.id".toList⟩

variable {σ ι : Type}

/-- `job_repository.create(job)`. -/
def createJob (outcome : Except PyError Unit) (job : PipelineJob) : SubmitM σ Unit := do
  liftResult outcome
  match (← get).repository.create job with
  | none => throw integrityError
  | some repository => modify fun w => { w with repository }

/-- The call that hands a job over to the workers. -/
def enqueueCall (outcome : Except PyError Unit) (call : QueuedCall) : SubmitM σ Unit := do
  liftResult outcome
  modify fun w => { w with queue := w.queue ++ [call] }

/-- `job_runner.submit(job)` of a runner that queues `call job.id`. -/
def submitWith (call : Str → QueuedCall) (env : RunnerEnv) (job : PipelineJob) :
    SubmitM σ Unit := do
  createJob env.create job
  enqueueCall env.enqueue (call job.id)

def PipelineJobRunner.submit : RunnerEnv → PipelineJob → SubmitM σ Unit := submitWith .execute

def CeleryJobRunner.submit : RunnerEnv → PipelineJob → SubmitM σ Unit :=
  submitWith .executePipelineJobTask

/-! ### The use case -/

namespace SubmitPipelineJobUseCase

/-- `self._job_idempotency_store.get(key)`. -/
def storeGet (port : JobIdempotencyStorePort σ) (now : ℚ) (key : Str) : SubmitM σ (Option Str) :=
  modifyGet fun w =>
    ((port.get now key w.store).1, { w with store := (port.get now key w.store).2 })

/-- `self._job_idempotency_store.reserve(key, job_id)`. -/
def storeReserve (port : JobIdempotencyStorePort σ) (now : ℚ) (key jobId : Str) :
    SubmitM σ Bool :=
  modifyGet fun w =>
    ((port.reserve now key jobId w.store).1,
      { w with store := (port.reserve now key jobId w.store).2 })

/-- `_resolve_idempotent`. -/
def resolveIdempotent (port : JobIdempotencyStorePort σ) (now : ℚ) (key : Str) :
    SubmitM σ (Option PipelineJob) := do
  match ← storeGet port now key with
  | none => pure none
  | some existingId => pure ((← get).repository.get existingId)

/-- `execute(job, idempotency_key=...)`: the job and `is_replay`.  The store is optional, and an
empty key is no key. -/
def execute (store : Option (JobIdempotencyStorePort σ)) (submit : PipelineJob → SubmitM σ Unit)
    (now : ℚ) (job : PipelineJob) (idempotencyKey : Option Str) :
    SubmitM σ (PipelineJob × Bool) :=
  let submitNew : SubmitM σ (PipelineJob × Bool) := do
    submit job
    pure (job, false)
  match idempotencyKey, store with
  | some (c :: cs), some port => do
    match ← resolveIdempotent port now (c :: cs) with
    | some replay => pure (replay, true)
    | none =>
      if ← storeReserve port now (c :: cs) job.id then submitNew
      else
        -- another request holds the key; its row may not exist yet
        match ← resolveIdempotent port now (c :: cs) with
        | some replay => pure (replay, true)
        | none => submitNew
  | _, _ => submitNew

/-! ### Concurrent requests with one key -/

/-- Where a request stands in `execute`. -/
inductive SubmitPc
  /-- The store lookup of `_resolve_idempotent` is next. -/
  | storeGet
  /-- Its repository lookup is next. -/
  | repositoryGet (existingId : Str)
  | reserve
  /-- The key was taken: the second `_resolve_idempotent` is next. -/
  | storeGetAgain
  | repositoryGetAgain (existingId : Str)
  | create
  | enqueue
  | returned (job : PipelineJob) (isReplay : Bool)
  | raised (exc : PyError)
  deriving DecidableEq

/-- Requests with one non-empty key: the store they share, the runner, and the job of each. -/
structure Requests (ι σ : Type) where
  port : JobIdempotencyStorePort σ
  call : Str → QueuedCall
  key : Str
  key_ne : key ≠ []
  job : ι → PipelineJob

/-- The next step of a request, at a reading `now` of the clock. -/
def submitStep (reqs : Requests ι σ) (now : ℚ) (job : PipelineJob) :
    SubmitPc → SubmitWorld σ → SubmitPc × SubmitWorld σ
  | .storeGet, w =>
    (match (reqs.port.get now reqs.key w.store).1 with
      | none => .reserve
      | some existingId => .repositoryGet existingId,
      { w with store := (reqs.port.get now reqs.key w.store).2 })
  | .repositoryGet existingId, w =>
    (match w.repository.get existingId with
      | none => .reserve
      | some replay => .returned replay true, w)
  | .reserve, w =>
    (if (reqs.port.reserve now reqs.key job.id w.store).1 then .create else .storeGetAgain,
      { w with store := (reqs.port.reserve now reqs.key job.id w.store).2 })
  | .storeGetAgain, w =>
    (match (reqs.port.get now reqs.key w.store).1 with
      | none => .create
      | some existingId => .repositoryGetAgain existingId,
      { w with store := (reqs.port.get now reqs.key w.store).2 })
  | .repositoryGetAgain existingId, w =>
    (match w.repository.get existingId with
      | none => .create
      | some replay => .returned replay true, w)
  | .create, w =>
    -- a duplicate id violates the primary key of the table
    match w.repository.create job with
    | none => (.raised integrityError, w)
    | some repository => (.enqueue, { w with repository })
  | .enqueue, w => (.returned job false, { w with queue := w.queue ++ [reqs.call job.id] })
  | .returned job isReplay, w => (.returned job isReplay, w)
  | .raised exc, w => (.raised exc, w)

/-- The shared world, and the clock of the store. -/
structure ClockedWorld (σ : Type) extends SubmitWorld σ where
  clock : ℚ

/-- Requests that share a world. -/
abbrev SubmitState (ι σ : Type) := Schedule.Interleaved ι SubmitPc (ClockedWorld σ)

/-- The next step of a request, some time after the last step of any request. -/
def clockedStep (reqs : Requests ι σ) (elapsed : ℚ≥0) (job : PipelineJob) (pc : SubmitPc)
    (w : ClockedWorld σ) : SubmitPc × ClockedWorld σ :=
  ((submitStep reqs (w.clock + elapsed) job pc w.toSubmitWorld).1,
    { toSubmitWorld := (submitStep reqs (w.clock + elapsed) job pc w.toSubmitWorld).2
      clock := w.clock + elapsed })

/-- Request `a.1` takes its next step, after the time `a.2`. -/
def step [DecidableEq ι] (reqs : Requests ι σ) (a : ι × ℚ≥0) :
    SubmitState ι σ → SubmitState ι σ :=
  Schedule.stepParty (clockedStep reqs a.2 (reqs.job a.1)) a.1

/-- Every request has arrived and none has started. -/
def start (w : SubmitWorld σ) (clock : ℚ) : SubmitState ι σ := ⟨⟨w, clock⟩, fun _ => .storeGet⟩

end SubmitPipelineJobUseCase

end MarketplacePipeline
