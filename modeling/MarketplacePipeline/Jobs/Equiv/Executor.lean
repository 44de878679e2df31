import MarketplacePipeline.Jobs.Executor

/-!
# What one execution leaves in the job table

`executePipelineJob_repository` computes the job table after an execution from the outcomes of its
calls: it is the table that four undisturbed steps of a delivery leave
(`run_solo_repository`).  `settles_iff` says exactly when the row is coherent and
terminal.
-/

namespace MarketplacePipeline.Executor

open Schedule

/-- What the use case returned, if it was built, executed and returned. -/
def ExecEnv.returned (env : ExecEnv) : Option PipelineResultDTO :=
  match env.container, env.useCase with
  | .ok _, .ok result => some result
  | _, _ => none

/-- The copy of the job that the `finally` block writes. -/
def settledJob (env : ExecEnv) (job : PipelineJob) : PipelineJob :=
  finishJob env (runUseCase env.useCase (startJob env job)).1

/-- The job table after an execution of a job found as `job`. -/
def tableAfter (env : ExecEnv) (job : PipelineJob) (t : JobTable) : JobTable :=
  match env.runningUpdate with
  | .error _ => t
  | .ok _ =>
    match env.container with
    | .error _ => t.update (startJob env job)
    | .ok _ =>
      match env.finalUpdate with
      | .error _ => t.update (startJob env job)
      | .ok _ => (t.update (startJob env job)).update (settledJob env job)

section Programs

variable (w : ExecWorld)

@[simp] theorem run_setCorrelationId (value : Option Str) :
    (setCorrelationId value).run w =
      .ok w.correlationId { w with correlationId := value } := rfl

@[simp] theorem run_resetCorrelationId (token : Option Str) :
    (resetCorrelationId token).run w = .ok () { w with correlationId := token } := rfl

@[simp] theorem run_updateJob_ok (u : Unit) (job : PipelineJob) :
    (updateJob (.ok u) job).run w =
      .ok () { w with repository := w.repository.update job } := rfl

@[simp] theorem run_updateJob_error (e : PyError) (job : PipelineJob) :
    (updateJob (.error e) job).run w = .error e w := rfl

@[simp] theorem run_openContainer_ok (u : Unit) :
    (openContainer (.ok u)).run w = .ok () { w with openClients := w.openClients + 1 } := rfl

@[simp] theorem run_openContainer_error (e : PyError) :
    (openContainer (.error e)).run w = .error e w := rfl

@[simp] theorem run_closeHttpClient :
    closeHttpClient.run w = .ok () { w with openClients := w.openClients - 1 } := rfl

@[simp] theorem run_onJobFinished (env : ExecEnv) (success : Bool) :
    (onJobFinished env success).run w =
      .ok () (if env.hasCallback then
        { w with
          finishedCalls := w.finishedCalls ++ [(success, env.perfFinished - env.perfStarted)] }
        else w) := rfl

end Programs

/-- The spec of an execution: the job table it leaves, whatever else happens. -/
theorem executePipelineJob_repository (env : ExecEnv) {jobId : Str} {w : ExecWorld}
    {job : PipelineJob} (hget : w.repository.get jobId = some job) :
    (worldAfter ((executePipelineJob env jobId).run w)).repository =
      tableAfter env job w.repository := by
  simp only [executePipelineJob, EStateM.run_bind, EStateM.run_get, hget, run_setCorrelationId]
  cases hrunning : env.runningUpdate with
  | error e => simp [tableAfter, hrunning, worldAfter]
  | ok u =>
    cases hcontainer : env.container with
    | error e => simp [tableAfter, hrunning, hcontainer, worldAfter]
    | ok u' =>
      cases hfinal : env.finalUpdate with
      | error e => simp [tableAfter, hrunning, hcontainer, hfinal, worldAfter]
      | ok u'' =>
        simp only [run_updateJob_ok, run_openContainer_ok, run_closeHttpClient,
          run_onJobFinished, run_resetCorrelationId, tableAfter, hrunning, hcontainer, hfinal,
          settledJob]
        -- the callback and an exception that goes on to the caller leave the table alone
        cases (runUseCase env.useCase (startJob env job)).2.2 <;>
          simp only [EStateM.run_pure, EStateM.run_throw, worldAfter] <;> split_ifs <;> rfl

/-- Four undisturbed steps of a delivery leave the job table that the execution leaves. -/
theorem run_solo_repository {ι : Type} [DecidableEq ι] (env : ι → ExecEnv) (i : ι)
    {jobId : Str} {w : ExecWorld} {job : PipelineJob}
    (hget : w.repository.get jobId = some job) :
    (run (step env jobId) (start w.repository) [i, i, i, i]).shared =
      (worldAfter ((executePipelineJob (env i) jobId).run w)).repository := by
  rw [executePipelineJob_repository (env i) hget, tableAfter]
  cases hrunning : (env i).runningUpdate with
  | error e => simp [start, step, stepParty, execStep, hget, hrunning]
  | ok u =>
    cases hcontainer : (env i).container with
    | error e => simp [start, step, stepParty, execStep, hget, hrunning, hcontainer]
    | ok u' =>
      cases hfinal : (env i).finalUpdate with
      | error e => simp [start, step, stepParty, execStep, hget, hrunning, hcontainer, hfinal]
      | ok u'' =>
        simp [start, step, stepParty, execStep, hget, hrunning, hcontainer, hfinal, settledJob]

/-! ### The row that an execution leaves -/

/-- A coherent and terminal row for an execution: completed with the counts of the result when the
use case returned, and failed with an error message otherwise. -/
structure SettledAs (env : ExecEnv) (row : PipelineJob) : Prop where
  finished : row.finishedAt ≠ none
  completed_iff : row.status = .completed ↔ env.returned ≠ none
  of_returned : ∀ result, env.returned = some result →
    row.collectedCount = some (result.collectionResult.collectedCount : Int) ∧
      row.classifiedCount = some (result.enrichedProducts.length : Int) ∧
      row.crmTasksCount = some (result.crmTasks.length : Int) ∧ row.errorMessage = none
  of_not_returned : env.returned = none →
    row.status = .failed ∧ row.errorMessage ≠ none ∧ row.collectedCount = none ∧
      row.classifiedCount = none ∧ row.crmTasksCount = none

/-- The row has no error message left over when the use case returns, and no counts when it
raises. -/
def NoLeftovers (env : ExecEnv) (job : PipelineJob) : Prop :=
  match env.useCase with
  | .ok _ => job.errorMessage = none
  | .error _ =>
    job.collectedCount = none ∧ job.classifiedCount = none ∧ job.crmTasksCount = none

/-- A job as `create_job` submits it carries no leftovers. -/
theorem noLeftovers_submitted (env : ExecEnv) (id : Str) (createdAt : Timestamp)
    (collectionTarget : Int) (correlationId : Option Str) :
    NoLeftovers env { id, createdAt, collectionTarget, correlationId } := by
  rw [NoLeftovers]
  split
  · rfl
  · exact ⟨rfl, rfl, rfl⟩

section Settles

variable {env : ExecEnv} {w : ExecWorld} {job : PipelineJob}

/-- The row when the container could not be built: the `RUNNING` update is the last one. -/
theorem get_after_of_container_error (hget : w.repository.get job.id = some job)
    (hrunning : env.runningUpdate = .ok ()) {exc : PyError}
    (hcontainer : env.container = .error exc) :
    (worldAfter ((executePipelineJob env job.id).run w)).repository.get job.id =
      some (job.overwrite (startJob env job)) := by
  rw [executePipelineJob_repository env hget, tableAfter, hrunning, hcontainer]
  simp only [JobTable.get_update, hget]
  exact if_pos rfl

/-- The row when the container was built: the one the `finally` block writes. -/
theorem get_after_of_container_ok (hget : w.repository.get job.id = some job)
    (hrunning : env.runningUpdate = .ok ()) (hcontainer : env.container = .ok ())
    (hfinal : env.finalUpdate = .ok ()) :
    (worldAfter ((executePipelineJob env job.id).run w)).repository.get job.id =
      some ((job.overwrite (startJob env job)).overwrite (settledJob env job)) := by
  have hid : (settledJob env job).id = job.id := by simp [settledJob]
  rw [executePipelineJob_repository env hget, tableAfter, hrunning, hcontainer, hfinal]
  simp [JobTable.get_update, hid, hget]

/-- The row that both updates leave of a job found as `job`. -/
def finalRow (env : ExecEnv) (job : PipelineJob) : PipelineJob :=
  (job.overwrite (startJob env job)).overwrite (settledJob env job)

/-- The use case returned: the row is completed with its counts, but keeps an error message that
the job already had. -/
theorem settledAs_finalRow_of_ok (hcontainer : env.container = .ok ())
    {result : PipelineResultDTO} (huse : env.useCase = .ok result) :
    SettledAs env (finalRow env job) ↔ job.errorMessage = none := by
  have hreturned : env.returned = some result := by rw [ExecEnv.returned, hcontainer, huse]
  have hmessage : (finalRow env job).errorMessage = job.errorMessage := by
    simp [finalRow, settledJob, finishJob, runUseCase, huse, startJob, PipelineJob.overwrite]
  constructor
  · intro hsettled
    rw [← hmessage]
    exact (hsettled.of_returned result hreturned).2.2.2
  · intro hnone
    refine ⟨by simp [finalRow, settledJob, finishJob, PipelineJob.overwrite], ?_, ?_, ?_⟩
    · simp [finalRow, hreturned, settledJob, finishJob, runUseCase, huse]
    · intro result' hresult'
      obtain rfl := Option.some.inj (hreturned.symm.trans hresult')
      rw [hmessage, hnone]
      simp [finalRow, settledJob, finishJob, runUseCase, huse, PipelineJob.overwrite]
    · intro hnot
      rw [hreturned] at hnot
      cases hnot

/-- The use case raised an `Exception`: the row is failed with its text, but keeps counts that the
job already had. -/
theorem settledAs_finalRow_of_exception {exc : PyError} (huse : env.useCase = .error exc)
    (hreturned : env.returned = none) (hexc : exc.isException = true) :
    SettledAs env (finalRow env job) ↔
      job.collectedCount = none ∧ job.classifiedCount = none ∧ job.crmTasksCount = none := by
  have hcounts : (finalRow env job).collectedCount = job.collectedCount ∧
      (finalRow env job).classifiedCount = job.classifiedCount ∧
      (finalRow env job).crmTasksCount = job.crmTasksCount := by
    simp [finalRow, settledJob, finishJob, runUseCase, huse, hexc, startJob,
      PipelineJob.overwrite]
  have hfailed : (finalRow env job).status = .failed := by
    simp [finalRow, settledJob, runUseCase, huse, hexc]
  constructor
  · intro hsettled
    rw [← hcounts.1, ← hcounts.2.1, ← hcounts.2.2]
    exact (hsettled.of_not_returned hreturned).2.2
  · intro hnone
    refine ⟨by simp [finalRow, settledJob, finishJob, PipelineJob.overwrite], ?_, ?_, ?_⟩
    · simp [hfailed, hreturned]
    · intro result hresult
      rw [hreturned] at hresult
      cases hresult
    · intro _
      rw [hcounts.1, hcounts.2.1, hcounts.2.2]
      refine ⟨hfailed, ?_, hnone⟩
      simp [finalRow, settledJob, finishJob, runUseCase, huse, hexc, PipelineJob.overwrite]

/-- The use case raised past `except Exception`: the `finally` block writes the row as running. -/
theorem not_settledAs_finalRow {exc : PyError} (huse : env.useCase = .error exc)
    (hreturned : env.returned = none) (hexc : ¬ exc.isException = true) :
    ¬ SettledAs env (finalRow env job) := by
  intro hsettled
  have hrunning : (finalRow env job).status = .running := by
    simp [finalRow, settledJob, runUseCase, huse, hexc]
  have hfailed := (hsettled.of_not_returned hreturned).1
  rw [hrunning] at hfailed
  cases hfailed

/-- **When an execution settles its job**: with both updates of the repository successful, the row
is coherent and terminal exactly when the container was built, the use case ended with a value or
with an `Exception`, and the row carried no leftovers. -/
theorem settles_iff (hget : w.repository.get job.id = some job)
    (hrunning : env.runningUpdate = .ok ()) (hfinal : env.finalUpdate = .ok ()) :
    (∃ row, (worldAfter ((executePipelineJob env job.id).run w)).repository.get job.id =
        some row ∧ SettledAs env row) ↔
      env.container = .ok () ∧
        (∀ exc, env.useCase = .error exc → exc.isException = true) ∧ NoLeftovers env job := by
  cases hcontainer : env.container with
  | error exc =>
    -- the `try` block is never entered: the row stays as the `RUNNING` update left it
    rw [get_after_of_container_error hget hrunning hcontainer]
    have hreturned : env.returned = none := by rw [ExecEnv.returned, hcontainer]
    constructor
    · rintro ⟨row, hrow, hsettled⟩
      obtain rfl := Option.some.inj hrow
      cases (hsettled.of_not_returned hreturned).1
    · rintro ⟨h, -⟩
      cases h
  | ok u =>
    have hrow := get_after_of_container_ok hget hrunning hcontainer hfinal
    rw [← finalRow] at hrow
    rw [hrow]
    simp only [Option.some.injEq, exists_eq_left', true_and]
    cases huse : env.useCase with
    | ok result =>
      rw [settledAs_finalRow_of_ok hcontainer huse, NoLeftovers, huse]
      simp
    | error exc =>
      have hreturned : env.returned = none := by rw [ExecEnv.returned, hcontainer, huse]
      by_cases hexc : exc.isException = true
      · rw [settledAs_finalRow_of_exception huse hreturned hexc, NoLeftovers, huse]
        simp [hexc]
      · refine iff_of_false (not_settledAs_finalRow huse hreturned hexc) ?_
        rintro ⟨hcaught, -⟩
        exact hexc (hcaught exc rfl)

end Settles

/-! ### Executions of one pending job -/

/-- A pending job for five products. -/
def submittedJob : PipelineJob where
  id := "job-1".toList
  createdAt := 0
  collectionTarget := 5

/-- A table that holds only that job. -/
def submittedTable : JobTable := ⟨[submittedJob], List.nodup_singleton _⟩

/-- A worker that is about to execute it. -/
def workerWorld : ExecWorld where
  repository := submittedTable
  correlationId := none
  openClients := 0
  finishedCalls := []

/-- A run of the pipeline over an empty catalog. -/
def emptyRun : PipelineResultDTO where
  collectionResult :=
    { products := [], targetCount := 5, collectedCount := 0, exhausted := true }
  enrichedProducts := []
  crmTasks := []
  outputPath := some "data/enriched_products.json".toList

/-- An execution in which every call returns. -/
def smoothEnv : ExecEnv where
  runningUpdate := .ok ()
  container := .ok ()
  useCase := .ok emptyRun
  finalUpdate := .ok ()
  startedAt := 1
  finishedAt := 2
  perfStarted := 0
  perfFinished := 1
  hasCallback := true

/-- An execution whose `Container(...)` raises, as `httpx.Client` does for a malformed proxy
variable in the environment. -/
def noContainerEnv : ExecEnv :=
  { smoothEnv with container := .error ⟨.value, "Unknown scheme for proxy URL".toList⟩ }

theorem settles_iff_smooth :
    ∃ row, (worldAfter ((executePipelineJob smoothEnv submittedJob.id).run
        workerWorld)).repository.get submittedJob.id = some row ∧ SettledAs smoothEnv row :=
  (settles_iff (show workerWorld.repository.get submittedJob.id = some submittedJob by decide)
    (show smoothEnv.runningUpdate = .ok () from rfl) rfl).mpr
    ⟨rfl, fun _ h => by simp [smoothEnv] at h, rfl⟩

/-- A pending job stays `running` without a `finished_at` when the container cannot be built. -/
theorem not_settled_of_container_raises :
    ¬ ∀ (env : ExecEnv) (w : ExecWorld) (job : PipelineJob),
      w.repository.get job.id = some job → job.status = .pending →
      env.runningUpdate = .ok () → env.finalUpdate = .ok () →
      ∃ row, (worldAfter ((executePipelineJob env job.id).run w)).repository.get job.id =
        some row ∧ SettledAs env row := by
  intro hall
  obtain ⟨row, hrow, hsettled⟩ :=
    hall noContainerEnv workerWorld submittedJob (by decide) rfl rfl rfl
  rw [get_after_of_container_error (by decide) rfl rfl] at hrow
  obtain rfl := Option.some.inj hrow
  exact hsettled.finished rfl

end MarketplacePipeline.Executor
