import MarketplacePipeline.Domain.CrmTask
import MarketplacePipeline.Jobs.JobTable
import MarketplacePipeline.Python.Error
import MarketplacePipeline.Algorithm.Schedule

/-!
# `execute_pipeline_job`

`executePipelineJob env jobId` is one execution of a job, with everything outside it (what the
repository, the container and the use case do, the clocks) fixed by `env`.  Its world is what it
touches: the job table, the correlation id of the context, the number of HTTP clients that are
open, and the calls of `on_job_finished`.

`DeliveryState` is the same code as a system of deliveries: any number of executions of one job
share the table, and a step of one of them is one repository call (with the local statements up to
the next one).  The two models share the assignments to the local `job` (`startJob`, `runUseCase`,
`finishJob`).
-/

namespace MarketplacePipeline.Executor

/-- What an execution finds outside: the outcome of each call it makes, and the clocks. -/
structure ExecEnv where
  /-- The first `job_repository.update(job)`. -/
  runningUpdate : Except PyError Unit
  /-- `Container(settings, output_dir=output_dir)`. -/
  container : Except PyError Unit
  /-- `container.run_pipeline_use_case(job.collection_target).execute()`. -/
  useCase : Except PyError PipelineResultDTO
  /-- The second `job_repository.update(job)`. -/
  finalUpdate : Except PyError Unit
  startedAt : Timestamp
  finishedAt : Timestamp
  perfStarted : ℚ
  perfFinished : ℚ
  /-- Whether an `on_job_finished` callback is configured. -/
  hasCallback : Bool

/-- `job.status = JobStatus.RUNNING; job.started_at = _utc_now()`. -/
def startJob (env : ExecEnv) (job : PipelineJob) : PipelineJob :=
  { job with status := .running, startedAt := some env.startedAt }

/-- The `try` and `except` blocks: the job, `success`, and the exception that goes on to the caller
once the `finally` block is done. -/
def runUseCase (useCase : Except PyError PipelineResultDTO) (job : PipelineJob) :
    PipelineJob × Bool × Option PyError :=
  match useCase with
  | .ok result =>
    ({ job with
        status := .completed
        collectedCount := some result.collectionResult.collectedCount
        classifiedCount := some result.enrichedProducts.length
        crmTasksCount := some result.crmTasks.length
        outputPath := result.outputPath }, true, none)
  | .error exc =>
    if exc.isException then
      ({ job with status := .failed, errorMessage := some exc.text }, false, none)
    else
      -- not caught by `except Exception`
      (job, false, some exc)

/-- `job.finished_at = _utc_now()`. -/
def finishJob (env : ExecEnv) (job : PipelineJob) : PipelineJob :=
  { job with finishedAt := some env.finishedAt }

@[simp] theorem startJob_id (env : ExecEnv) (job : PipelineJob) :
    (startJob env job).id = job.id := rfl

@[simp] theorem startJob_status (env : ExecEnv) (job : PipelineJob) :
    (startJob env job).status = .running := rfl

@[simp] theorem finishJob_id (env : ExecEnv) (job : PipelineJob) :
    (finishJob env job).id = job.id := rfl

@[simp] theorem finishJob_status (env : ExecEnv) (job : PipelineJob) :
    (finishJob env job).status = job.status := rfl

@[simp] theorem runUseCase_id (useCase : Except PyError PipelineResultDTO) (job : PipelineJob) :
    (runUseCase useCase job).1.id = job.id := by
  unfold runUseCase
  split
  · rfl
  · split_ifs <;> rfl

/-! ### One execution -/

/-- What `execute_pipeline_job` touches. -/
structure ExecWorld where
  repository : JobTable
  correlationId : Option Str
  openClients : Nat
  /-- The calls of `on_job_finished`: `success` and `duration_seconds`. -/
  finishedCalls : List (Bool × ℚ)

abbrev ExecM := EStateM PyError ExecWorld

/-- `set_correlation_id(value)`; the token is the value it replaces. -/
def setCorrelationId (value : Option Str) : ExecM (Option Str) :=
  modifyGet fun w => (w.correlationId, { w with correlationId := value })

/-- `reset_correlation_id(token)`. -/
def resetCorrelationId (token : Option Str) : ExecM Unit :=
  modify fun w => { w with correlationId := token }

/-- `job_repository.update(job)`, which has no effect when it raises. -/
def updateJob (outcome : Except PyError Unit) (job : PipelineJob) : ExecM Unit := do
  liftResult outcome
  modify fun w => { w with repository := w.repository.update job }

/-- `Container(...)`: opens the HTTP client it owns. -/
def openContainer (outcome : Except PyError Unit) : ExecM Unit := do
  liftResult outcome
  modify fun w => { w with openClients := w.openClients + 1 }

/-- `container.http_client.close()`. -/
def closeHttpClient : ExecM Unit :=
  modify fun w => { w with openClients := w.openClients - 1 }

/-- `if on_job_finished is not None: on_job_finished(...)`. -/
def onJobFinished (env : ExecEnv) (success : Bool) : ExecM Unit :=
  modify fun w =>
    if env.hasCallback then
      { w with
        finishedCalls := w.finishedCalls ++ [(success, env.perfFinished - env.perfStarted)] }
    else w

/-- `execute_pipeline_job(...)`. -/
def executePipelineJob (env : ExecEnv) (jobId : Str) : ExecM Unit := do
  match (← get).repository.get jobId with
  | none => pure ()
  | some job =>
    let token ← setCorrelationId job.correlationId
    let job := startJob env job
    updateJob env.runningUpdate job
    -- outside of the `try` block
    openContainer env.container
    let (job, success, uncaught) := runUseCase env.useCase job
    -- the `finally` block
    let job := finishJob env job
    updateJob env.finalUpdate job
    closeHttpClient
    onJobFinished env success
    resetCorrelationId token
    match uncaught with
    | none => pure ()
    | some exc => throw exc

/-! ### Deliveries of one job -/

/-- Where an execution stands, with its local `job`. -/
inductive ExecPc
  /-- The task was delivered: `job_repository.get` is next. -/
  | delivered
  /-- The `RUNNING` update is next. -/
  | starting (job : PipelineJob)
  /-- The container and the use case are next. -/
  | working (job : PipelineJob)
  /-- The update of the `finally` block is next. -/
  | settling (job : PipelineJob)
  /-- Control has left the function. -/
  | left
  deriving DecidableEq

/-- The next step of an execution. -/
def execStep (env : ExecEnv) (jobId : Str) : ExecPc → JobTable → ExecPc × JobTable
  | .delivered, t =>
    match t.get jobId with
    | none => (.left, t)
    | some job => (.starting (startJob env job), t)
  | .starting job, t =>
    match env.runningUpdate with
    | .error _ => (.left, t)
    | .ok _ => (.working job, t.update job)
  | .working job, t =>
    match env.container with
    | .error _ => (.left, t)
    | .ok _ => (.settling (finishJob env (runUseCase env.useCase job).1), t)
  | .settling job, t =>
    match env.finalUpdate with
    | .error _ => (.left, t)
    | .ok _ => (.left, t.update job)
  | .left, t => (.left, t)

/-- Executions of one job that share the job table.  An execution whose worker died is one that no
later step of the schedule belongs to. -/
abbrev DeliveryState (ι : Type) := Schedule.Interleaved ι ExecPc JobTable

variable {ι : Type} [DecidableEq ι]

/-- Execution `i` takes its next step. -/
def step (env : ι → ExecEnv) (jobId : Str) (i : ι) : DeliveryState ι → DeliveryState ι :=
  Schedule.stepParty (execStep (env i) jobId) i

/-- Every execution was delivered and none has started. -/
def start (t : JobTable) : DeliveryState ι := ⟨t, fun _ => .delivered⟩

end MarketplacePipeline.Executor
