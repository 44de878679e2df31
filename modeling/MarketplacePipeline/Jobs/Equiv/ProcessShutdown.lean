import MarketplacePipeline.Algorithm.Progress
import MarketplacePipeline.Jobs.Equiv.ProcessMetrics

/-!
# Shutdown of an API process

Once the requests are answered, workers that get enough turns empty the queue
(`shutdown_settles`).
-/

namespace MarketplacePipeline.ApiProcess

open Schedule Accounting Executor SubmitPipelineJobUseCase

variable {σ ι ω : Type}

/-! ### What the steps make of the work -/

/-- The response of a request is decided. -/
def RequestPc.Ended (pc : RequestPc) : Prop :=
  (∃ job isReplay, pc = .answered job isReplay) ∨ ∃ exc, pc = .raised exc

/-- The steps that an execution may still need. -/
def execWork : ExecPc → ℕ
  | .delivered => 6
  | .starting _ => 5
  | .working _ => 4
  | .settling _ => 3
  | .left => 1

/-- The steps that a worker may still need. -/
def WorkerPc.work : WorkerPc → ℕ
  | .idle => 0
  | .executing _ pc => execWork pc
  | .observing _ => 2
  | .counting _ => 1

theorem execWork_execStep_lt {env : ExecEnv} {jobId : Str} {pc : ExecPc} {t : JobTable}
    (h : (execStep env jobId pc t).1 ≠ .left) :
    execWork (execStep env jobId pc t).1 < execWork pc := by
  cases pc with
  | delivered =>
    simp only [execStep] at h ⊢
    split at h
    · exact absurd rfl h
    · simp [execWork]
  | starting job =>
    simp only [execStep] at h ⊢
    split at h
    · exact absurd rfl h
    · simp [execWork]
  | working job =>
    simp only [execStep] at h ⊢
    split at h
    · exact absurd rfl h
    · simp [execWork]
  | settling job =>
    simp only [execStep] at h
    split at h <;> exact absurd rfl h
  | left => exact absurd rfl h

theorem work_afterExecution_lt (env : ExecEnv) (pc : ExecPc) :
    (afterExecution env pc).work < execWork pc := by
  have hle : (afterExecution env pc).work ≤ 2 := by
    unfold afterExecution
    split <;> simp [WorkerPc.work]
  cases pc with
  | left => exact Nat.zero_lt_one
  | delivered | starting | working | settling => exact lt_of_le_of_lt hle (by simp [execWork])

/-- No worker queues anything. -/
theorem queue_of_worker {env : Str → ExecEnv} {s : State ι ω σ} {k : ω} {pc' : WorkerPc}
    {w' : World σ}
    (heffect : WorkerEffect env (s.worker k) s.world pc' w') (hqueue : s.world.queue = []) :
    w'.queue = [] := by
  generalize s.worker k = pc at heffect
  cases heffect with
  | takes htake =>
    rw [hqueue] at htake
    cases htake
  | waits | executes | leaves | observes | counts => exact hqueue

/-! ### The work that is left -/

variable [Fintype ω] {posts : ι → JobPost} {env : Str → ExecEnv} {port : JobIdempotencyStorePort σ}

/-- The steps that the workers may still need for what is queued and in hand. -/
def work (s : State ι ω σ) : ℕ := 7 * s.world.queue.length + total (fun _ => WorkerPc.work) s.worker

/-- A worker has nothing to do. -/
def Idle (k : ω) (s : State ι ω σ) : Prop := s.worker k = .idle ∧ s.world.queue = []

/-- A worker with nothing to do stays where it is; any other one gets some of the work done. -/
theorem work_of_worker [DecidableEq ω] {s : State ι ω σ} {k : ω} {pc' : WorkerPc} {w' : World σ}
    (heffect : WorkerEffect env (s.worker k) s.world pc' w') :
    (Idle k s ∧ pc' = .idle ∧ w' = s.world) ∨
      work (⟨w', s.request, Function.update s.worker k pc'⟩ : State ι ω σ) < work s := by
  have hwork := total_update (fun _ => WorkerPc.work) s.worker k pc'
  unfold work Idle
  generalize s.worker k = pc at heffect hwork ⊢
  dsimp only
  cases heffect with
  | waits hqueue => exact Or.inl ⟨⟨rfl, hqueue⟩, rfl, rfl⟩
  | takes hqueue =>
    simp only [WorkerPc.work, execWork] at hwork
    rw [hqueue, List.length_cons]
    dsimp only
    omega
  | executes hleft =>
    have hlt := execWork_execStep_lt hleft
    simp only [WorkerPc.work] at hwork
    dsimp only
    omega
  | @leaves _ jobId pc hleft =>
    have hlt := work_afterExecution_lt (env jobId) pc
    rw [show (WorkerPc.executing jobId pc).work = execWork pc from rfl] at hwork
    dsimp only
    omega
  | observes | counts =>
    simp only [WorkerPc.work] at hwork
    dsimp only
    omega

/-- The workers make progress until there is nothing to do. -/
theorem progresses_workers [DecidableEq ι] [DecidableEq ω] (posts : ι → JobPost)
    (port : JobIdempotencyStorePort σ) (env : Str → ExecEnv) :
    Progresses (fun (k : ω) s => step posts port env (.worker k) s) work Idle where
  done_or_lt k s := (work_of_worker (workerStep_effect env (s.worker k) s.world)).imp_left And.left
  work_le k s := by
    rcases work_of_worker (workerStep_effect env (s.worker k) s.world) with ⟨⟨hk, -⟩, hpc, hw⟩ | hlt
    · show work (⟨_, s.request, Function.update s.worker k _⟩ : State ι ω σ) ≤ work s
      rw [hpc, hw, ← hk, Function.update_eq_self]
    · exact hlt.le
  done_step k l s hidle := by
    refine ⟨?_, queue_of_worker (workerStep_effect env (s.worker l) s.world) hidle.2⟩
    show Function.update s.worker l _ k = .idle
    by_cases hkl : k = l
    · subst hkl
      rw [Function.update_self, hidle.1]
      simp only [workerStep, hidle.2]
    · rw [Function.update_of_ne hkl]
      exact hidle.1

variable [Fintype ι]

/-- The parts of an account that are zero when everybody is done. -/
theorem Accounts.settled {w₀ : World σ} {s : State ι ω σ} (h : Accounts posts w₀ s)
    (hended : ∀ i, (s.request i).Ended) (hqueue : s.world.queue = [])
    (hidle : ∀ k, s.worker k = .idle) :
    s.world.repository.idsWith .pending = w₀.repository.idsWith .pending ∧
      s.world.repository.idsWith .running = w₀.repository.idsWith .running ∧
      (∀ success, (s.world.repository.idsWith (statusOf success)).card +
        w₀.metrics.shownJobs.ended success =
          (w₀.repository.idsWith (statusOf success)).card +
            s.world.metrics.shownJobs.ended success) ∧
      s.world.metrics.shownJobs.submitted + w₀.repository.rows.length =
        w₀.metrics.shownJobs.submitted + s.world.repository.rows.length := by
  have hwaiting : total (fun i => RequestPc.waiting (posts i)) s.request = 0 := by
    refine total_eq_zero fun i => ?_
    rcases hended i with ⟨job, isReplay, hi⟩ | ⟨exc, hi⟩ <;> rw [hi] <;> rfl
  have huncounted : total (fun _ => RequestPc.uncounted) s.request = 0 := by
    refine total_eq_zero fun i => ?_
    rcases hended i with ⟨job, isReplay, hi⟩ | ⟨exc, hi⟩ <;> rw [hi] <;> rfl
  have hholds : ∀ status, total (fun _ => WorkerPc.holds status) s.worker = 0 := by
    refine fun status => total_eq_zero fun k => ?_
    rw [hidle k]
    rfl
  have hunreported : ∀ success, total (fun _ => WorkerPc.unreported success) s.worker = 0 := by
    refine fun success => total_eq_zero fun k => ?_
    rw [hidle k]
    rfl
  refine ⟨?_, ?_, fun success => ?_, ?_⟩
  · rw [h.pending, hwaiting, hqueue, hholds]
    simp
  · rw [h.running, hholds, add_zero]
  · have hcount := h.ended success
    rw [hunreported, add_zero] at hcount
    exact hcount
  · have hcount := h.submitted
    rw [huncounted, hwaiting, Multiset.card_zero, add_zero, add_zero] at hcount
    exact hcount

/-- **Graceful shutdown** of a process whose executions store and report their outcomes: once every
request is answered, workers that get enough turns empty the queue.  Then every job of the process
is completed or failed, the counters of both are those of the rows, and every submitted job has been
counted as completed or failed. -/
theorem shutdown_settles [DecidableEq ι] [DecidableEq ω] [Nonempty ω] (posts : ι → JobPost)
    (port : JobIdempotencyStorePort σ) {env : Str → ExecEnv} {w₀ : World σ} (hfresh : w₀.Fresh)
    (henv : ∀ jobId, Reports (env jobId)) (schedule : List (Move ι ω))
    (hended : ∀ i, ((run (step posts port env) (start posts w₀) schedule).request i).Ended)
    (turns : List ω)
    (hturns : ∀ k, work (run (step posts port env) (start posts w₀) schedule) < turns.count k) :
    let s := run (step posts port env) (start posts w₀) (schedule ++ turns.map Move.worker)
    (∀ k, Idle k s) ∧
      (∀ jobId row, s.world.repository.get jobId = some row →
        jobId ∈ w₀.repository.ids ∨ row.status.isTerminal = true) ∧
      (∀ success, (s.world.repository.idsWith (statusOf success)).card +
        w₀.metrics.shownJobs.ended success =
          (w₀.repository.idsWith (statusOf success)).card +
            s.world.metrics.shownJobs.ended success) ∧
      s.world.metrics.shownJobs.submitted + w₀.metrics.shownJobs.completed +
          w₀.metrics.shownJobs.failed =
        w₀.metrics.shownJobs.submitted + s.world.metrics.shownJobs.completed +
          s.world.metrics.shownJobs.failed := by
  intro s
  have hrun : s = run (fun k s => step posts port env (.worker k) s)
      (run (step posts port env) (start posts w₀) schedule) turns :=
    (run_append _ _ _).trans (run_map Move.worker _ turns)
  have hidle : ∀ k, Idle k s := by
    intro k
    rw [hrun]
    exact (progresses_workers posts port env).done_of_lt_count (hturns k)
  have hrequests : ∀ i, (s.request i).Ended := by
    rw [hrun]
    have hstep : ∀ (k : ω) (s : State ι ω σ), (∀ i, (s.request i).Ended) →
        ∀ i, ((step posts port env (.worker k) s).request i).Ended := fun _ _ h => h
    exact invariant_run hstep hended turns
  -- nobody holds a pending or running job any more, so those rows are the ones of before
  have haccounts : Accounts posts w₀ s := (counted_run hfresh henv _).accounts
  obtain ⟨hpending, hrunning, hcounts, hsubmitted⟩ := haccounts.settled hrequests
    (hidle (Classical.arbitrary ω)).2 fun k => (hidle k).1
  refine ⟨hidle, fun jobId row hget => ?_, hcounts, ?_⟩
  · cases hstatus : row.status with
    | completed | failed => exact Or.inr rfl
    | pending =>
      have hmem : jobId ∈ w₀.repository.idsWith .pending :=
        hpending ▸ JobTable.mem_idsWith.mpr ⟨row, hget, hstatus⟩
      exact Or.inl (JobTable.mem_ids_of_mem_idsWith hmem)
    | running =>
      have hmem : jobId ∈ w₀.repository.idsWith .running :=
        hrunning ▸ JobTable.mem_idsWith.mpr ⟨row, hget, hstatus⟩
      exact Or.inl (JobTable.mem_ids_of_mem_idsWith hmem)
  · have hcompleted := hcounts true
    have hfailed := hcounts false
    have hrows : s.world.repository.rows.length + w₀.metrics.shownJobs.completed +
        w₀.metrics.shownJobs.failed = w₀.repository.rows.length +
          s.world.metrics.shownJobs.completed + s.world.metrics.shownJobs.failed := by
      rw [JobTable.length_rows, JobTable.length_rows w₀.repository, hpending, hrunning]
      simp only [statusOf, JobCounters.ended, if_true, Bool.false_eq_true, if_false]
        at hcompleted hfailed
      omega
    omega

/-- The turns of two workers after the request. -/
def turns : List (Fin 2) := (List.finRange 2).flatMap (List.replicate 8)

theorem shutdown_settles_onePost :
    let s := run (step onePost (memoryJobIdempotencyStore 60) fun _ => smoothEnv)
      (start onePost freshProcess) (posted ++ turns.map Move.worker)
    (∀ k, Idle k s) ∧
      (∀ jobId row, s.world.repository.get jobId = some row →
        jobId ∈ freshProcess.repository.ids ∨ row.status.isTerminal = true) ∧
      (∀ success, (s.world.repository.idsWith (statusOf success)).card +
        freshProcess.metrics.shownJobs.ended success =
          (freshProcess.repository.idsWith (statusOf success)).card +
            s.world.metrics.shownJobs.ended success) ∧
      s.world.metrics.shownJobs.submitted + freshProcess.metrics.shownJobs.completed +
          freshProcess.metrics.shownJobs.failed =
        freshProcess.metrics.shownJobs.submitted + s.world.metrics.shownJobs.completed +
          s.world.metrics.shownJobs.failed :=
  shutdown_settles onePost (memoryJobIdempotencyStore 60) freshProcess_fresh
    (fun _ => smoothEnv_reports)
    posted (fun i => by
      obtain rfl : i = 0 := Subsingleton.elim i 0
      exact Or.inl ⟨submittedJob, false, by decide +kernel⟩)
    turns (by decide +kernel)

end MarketplacePipeline.ApiProcess
