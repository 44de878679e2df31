import MarketplacePipeline.Jobs.Equiv.Executor

/-!
# What one execution releases

An execution sets the correlation id of the context, opens the HTTP client of its container and owes
a call of `on_job_finished`.  The first update and the constructor of the container are outside of
the `try` block, and the second update is the first statement of the `finally` block: if one of them
raises, the releases after it are skipped.  `releases_iff` says exactly when nothing is left behind.
-/

namespace MarketplacePipeline.Executor

/-- Between `w` and `w'`, all that was acquired is released. -/
structure Released (env : ExecEnv) (w w' : ExecWorld) : Prop where
  correlationId : w'.correlationId = w.correlationId
  /-- A callback that is configured was called once, with `success` only for a result. -/
  finishedCalls : env.hasCallback = true → ∃ success,
    w'.finishedCalls = w.finishedCalls ++ [(success, env.perfFinished - env.perfStarted)] ∧
      (success = true → env.returned ≠ none)
  openClients : w'.openClients = w.openClients

/-- The repository and the container do what they are asked to; the use case may raise. -/
def InfrastructureReturns (env : ExecEnv) : Prop :=
  env.runningUpdate = .ok () ∧ env.container = .ok () ∧ env.finalUpdate = .ok ()

/-- The execution ends before the container is open, no callback is waiting for it, and the context
had the correlation id of the job all along. -/
def NothingAcquired (env : ExecEnv) (job : PipelineJob) (w : ExecWorld) : Prop :=
  (env.runningUpdate ≠ .ok () ∨ env.container ≠ .ok ()) ∧ env.hasCallback = false ∧
    job.correlationId = w.correlationId

section Worlds

variable {env : ExecEnv} {jobId : Str} {job : PipelineJob} {w : ExecWorld}

/-- An execution that ends before the `try` block has changed the correlation id only. -/
theorem after_of_interrupted (hget : w.repository.get jobId = some job)
    (h : env.runningUpdate ≠ .ok () ∨ env.container ≠ .ok ()) :
    worldAfter ((executePipelineJob env jobId).run w) =
      { w with
        repository :=
          (worldAfter ((executePipelineJob env jobId).run w)).repository
        correlationId := job.correlationId } := by
  simp only [executePipelineJob, EStateM.run_bind, EStateM.run_get, hget, run_setCorrelationId]
  cases hrunning : env.runningUpdate with
  | error exc => rfl
  | ok u =>
    cases hcontainer : env.container with
    | error exc => rfl
    | ok u' =>
      rcases h with h | h
      · exact absurd hrunning h
      · exact absurd hcontainer h

/-- If the second update raises, the client stays open. -/
theorem openClients_of_finalUpdate_error (hget : w.repository.get jobId = some job)
    (hrunning : env.runningUpdate = .ok ()) (hcontainer : env.container = .ok ()) {exc : PyError}
    (hfinal : env.finalUpdate = .error exc) :
    (worldAfter ((executePipelineJob env jobId).run w)).openClients = w.openClients + 1 := by
  simp only [executePipelineJob, EStateM.run_bind, EStateM.run_get, hget, run_setCorrelationId,
    hrunning, hcontainer, hfinal]
  rfl

/-- If it does not, the `finally` block is run to its end. -/
theorem after_of_infrastructureReturns (hget : w.repository.get jobId = some job)
    (h : InfrastructureReturns env) :
    worldAfter ((executePipelineJob env jobId).run w) =
      { w with
        repository :=
          (worldAfter ((executePipelineJob env jobId).run w)).repository
        finishedCalls :=
          if env.hasCallback then
            w.finishedCalls ++ [((runUseCase env.useCase (startJob env job)).2.1,
              env.perfFinished - env.perfStarted)]
          else w.finishedCalls } := by
  obtain ⟨hrunning, hcontainer, hfinal⟩ := h
  simp only [executePipelineJob, EStateM.run_bind, EStateM.run_get, hget, run_setCorrelationId,
    hrunning, hcontainer, hfinal, run_updateJob_ok, run_openContainer_ok, run_closeHttpClient,
    run_onJobFinished, run_resetCorrelationId]
  cases (runUseCase env.useCase (startJob env job)).2.2 <;>
    cases env.hasCallback <;> rfl

/-- `success` is set where the use case has returned. -/
theorem returned_of_success (hcontainer : env.container = .ok ())
    (h : (runUseCase env.useCase (startJob env job)).2.1 = true) : env.returned ≠ none := by
  unfold ExecEnv.returned runUseCase at *
  rw [hcontainer]
  cases huse : env.useCase with
  | ok result => simp
  | error exc =>
    rw [huse] at h
    dsimp only at h
    split_ifs at h

/-- An execution that ends before the `try` block leaves all to its caller. -/
theorem released_iff_of_interrupted (hget : w.repository.get jobId = some job)
    (h : env.runningUpdate ≠ .ok () ∨ env.container ≠ .ok ()) :
    Released env w (worldAfter ((executePipelineJob env jobId).run w)) ↔
      NothingAcquired env job w := by
  have hafter := after_of_interrupted hget h
  constructor
  · intro hreleased
    rw [hafter] at hreleased
    refine ⟨h, ?_, hreleased.correlationId⟩
    by_contra hcallback
    obtain ⟨success, hcalls, -⟩ := hreleased.finishedCalls (eq_true_of_ne_false hcallback)
    simp at hcalls
  · rintro ⟨-, hcallback, hcorrelation⟩
    rw [hafter]
    exact ⟨hcorrelation, fun h => absurd (hcallback.symm.trans h) (by decide), rfl⟩

/-- One that gets into it releases all, unless the `finally` block stops at its first statement. -/
theorem released_iff_of_opened (hget : w.repository.get jobId = some job)
    (hrunning : env.runningUpdate = .ok ()) (hcontainer : env.container = .ok ()) :
    Released env w (worldAfter ((executePipelineJob env jobId).run w)) ↔
      env.finalUpdate = .ok () := by
  cases hfinal : env.finalUpdate with
  | error exc =>
    refine iff_of_false (fun h => ?_) (by simp)
    have hopen := openClients_of_finalUpdate_error hget hrunning hcontainer hfinal
    rw [h.openClients] at hopen
    omega
  | ok u =>
    refine iff_of_true ?_ rfl
    rw [after_of_infrastructureReturns hget ⟨hrunning, hcontainer, hfinal⟩]
    refine ⟨rfl, fun hcallback => ⟨_, if_pos hcallback, ?_⟩, rfl⟩
    exact returned_of_success hcontainer

/-- **When an execution releases what it acquires**: if and only if the two updates and the
container do not raise, or there was nothing to release. -/
theorem releases_iff (hget : w.repository.get jobId = some job) :
    Released env w (worldAfter ((executePipelineJob env jobId).run w)) ↔
      InfrastructureReturns env ∨ NothingAcquired env job w := by
  by_cases hinterrupted : env.runningUpdate ≠ .ok () ∨ env.container ≠ .ok ()
  · have hnot : ¬ InfrastructureReturns env := by
      rintro ⟨hrunning, hcontainer, -⟩
      rcases hinterrupted with h | h
      · exact h hrunning
      · exact h hcontainer
    rw [or_iff_right hnot]
    exact released_iff_of_interrupted hget hinterrupted
  · have hnot : ¬ NothingAcquired env job w := fun h => hinterrupted h.1
    rw [not_or, not_not, not_not] at hinterrupted
    obtain ⟨hrunning, hcontainer⟩ := hinterrupted
    rw [or_iff_left hnot, released_iff_of_opened hget hrunning hcontainer]
    exact ⟨fun h => ⟨hrunning, hcontainer, h⟩, fun h => h.2.2⟩

end Worlds

/-! ### A repository that is down -/

/-- A worker whose context has a correlation id of its own. -/
def tracedWorld : ExecWorld := { workerWorld with correlationId := some "req-1".toList }

/-- An execution whose second update raises. -/
def lostRowEnv : ExecEnv :=
  { smoothEnv with finalUpdate := .error ⟨.exception, "database is locked".toList⟩ }

theorem releases_iff_smooth :
    Released smoothEnv tracedWorld
        (worldAfter ((executePipelineJob smoothEnv submittedJob.id).run tracedWorld)) ↔
      InfrastructureReturns smoothEnv ∨ NothingAcquired smoothEnv submittedJob tracedWorld :=
  releases_iff (show tracedWorld.repository.get submittedJob.id = some submittedJob by decide)

/-- The client stays open, and nobody hears of the end of the job. -/
theorem not_released_of_lost_row :
    ¬ ∀ (env : ExecEnv) (jobId : Str) (job : PipelineJob) (w : ExecWorld),
      w.repository.get jobId = some job →
      Released env w (worldAfter ((executePipelineJob env jobId).run w)) := by
  intro hall
  have hget : tracedWorld.repository.get submittedJob.id = some submittedJob := by decide
  have h := hall lostRowEnv submittedJob.id submittedJob tracedWorld hget
  have hopen : (worldAfter ((executePipelineJob lostRowEnv submittedJob.id).run
      tracedWorld)).openClients = tracedWorld.openClients + 1 :=
    openClients_of_finalUpdate_error hget rfl rfl rfl
  rw [h.openClients] at hopen
  omega

end MarketplacePipeline.Executor
