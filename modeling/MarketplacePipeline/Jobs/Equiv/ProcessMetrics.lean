import MarketplacePipeline.Jobs.Equiv.ProcessAccounts

/-!
# Counters of an API process

If every execution can store its outcome and report it, then the counters of `GET /metrics` and the
rows of the job table tell the same story at every moment, up to the steps that are still to come
(`counters_agree`).
-/

namespace MarketplacePipeline

open Schedule Accounting Executor SubmitPipelineJobUseCase

/-- The counter of the jobs that ended with `success`. -/
def JobCounters.ended (success : Bool) (c : JobCounters) : ℕ :=
  if success then c.completed else c.failed

namespace ApiProcess

variable {σ ι ω : Type}

/-- An execution that stores an outcome and reports it. -/
structure Reports (env : ExecEnv) : Prop extends env.StoresOutcome where
  hasCallback : env.hasCallback = true

/-- The status of a job whose use case ended. -/
def statusOf (success : Bool) : JobStatus := if success then .completed else .failed

/-- The report of an ended execution that is still to be counted. -/
def WorkerPc.unreported (success : Bool) : WorkerPc → ℕ
  | .observing ended | .counting ended => if ended = success then 1 else 0
  | _ => 0

theorem card_tag_statusOf (success ended : Bool) (jobId : Str) :
    (tag (statusOf success) (statusOf ended) jobId).card = if ended = success then 1 else 0 := by
  cases success <;> cases ended <;> rfl

/-! ### The outcome of an execution -/

theorem runUseCase_outcome (useCase : Except PyError PipelineResultDTO) {job : PipelineJob}
    (hcaught : ∀ exc, useCase = .error exc → exc.isException = true) :
    (runUseCase useCase job).1.status = statusOf useCase.isOk ∧
      (runUseCase useCase job).2.1 = useCase.isOk := by
  unfold runUseCase
  cases useCase with
  | ok result => exact ⟨rfl, rfl⟩
  | error exc => simp [hcaught exc rfl, statusOf, Except.isOk, Except.toBool]

/-- The local `job` of an execution that is about to store its outcome. -/
def Settled (env : ExecEnv) (pc : ExecPc) : Prop :=
  ∀ job, pc = .settling job → job.status = statusOf env.useCase.isOk

section Execution

variable {env : ExecEnv} {jobId : Str} {pc : ExecPc} {t : JobTable} {row : PipelineJob}

theorem settled_execStep (henv : Reports env) : Settled env (execStep env jobId pc t).1 := by
  intro job hjob
  cases pc with
  | delivered => simp only [execStep] at hjob; split at hjob <;> cases hjob
  | starting job => simp only [execStep, henv.running] at hjob; cases hjob
  | working job' =>
    simp only [execStep, henv.container] at hjob
    cases hjob
    rw [finishJob_status]
    exact (runUseCase_outcome env.useCase henv.caught).1
  | settling job => simp only [execStep, henv.final] at hjob; cases hjob
  | left => cases hjob

theorem length_execStep : (execStep env jobId pc t).2.rows.length = t.rows.length := by
  rw [execStep_snd]
  split
  · rfl
  · exact List.length_map ..

/-- An execution that reports is left with its outcome stored and about to be reported. -/
theorem left_of_reports (henv : Reports env) (hget : t.get jobId = some row)
    (hpcOk : PcOk env jobId pc) (hpc : pc ≠ .left) (hsettled : Settled env pc)
    (hleft : (execStep env jobId pc t).1 = .left) :
    afterExecution env pc = .observing env.useCase.isOk ∧
      ∀ row', (execStep env jobId pc t).2.get jobId = some row' →
        row'.status = statusOf env.useCase.isOk := by
  cases pc with
  | delivered => simp [execStep, hget] at hleft
  | starting job => simp [execStep, henv.running] at hleft
  | working job => simp [execStep, henv.container] at hleft
  | left => exact absurd rfl hpc
  | settling job =>
    constructor
    · simp [afterExecution, reported, henv.final, henv.hasCallback,
        (runUseCase_outcome env.useCase henv.caught).2]
    · intro row' hrow'
      simp only [execStep, henv.final] at hrow'
      rw [JobTable.get_update, if_pos hpcOk.1.symm, hget, Option.map_some] at hrow'
      obtain rfl := Option.some.inj hrow'
      rw [PipelineJob.overwrite_status]
      exact hsettled job rfl

end Execution

/-! ### What is held -/

theorem RequestPc.holds_pending (post : JobPost) (pc : RequestPc) :
    pc.holds .pending post = pc.waiting post := by
  unfold RequestPc.holds RequestPc.waiting
  split <;> simp [tag]

theorem RequestPc.holds_eq_zero {status : JobStatus} (hstatus : status ≠ .pending) (post : JobPost)
    (pc : RequestPc) : pc.holds status post = 0 := by
  unfold RequestPc.holds
  split <;> simp [tag, hstatus.symm]

theorem WorkerPc.holds_eq_zero {status : JobStatus} (hstatus : status.isTerminal = true)
    (pc : WorkerPc) : pc.holds status = 0 := by
  unfold WorkerPc.holds
  cases status with
  | pending | running => cases hstatus
  | completed | failed =>
    cases pc with
    | executing jobId pc => cases pc <;> rfl
    | idle | observing | counting => rfl

theorem World.queued_pending (w : World σ) :
    w.queued .pending = (w.queue.map QueuedCall.jobId : List Str) := by
  unfold World.queued
  induction w.queue with
  | nil => rfl
  | cons call queue ih =>
    rw [List.map_cons, List.sum_cons, ih, List.map_cons, ← Multiset.cons_coe]
    rfl

theorem World.queued_eq_zero {status : JobStatus} (hstatus : status ≠ .pending) (w : World σ) :
    w.queued status = 0 := by
  refine List.sum_eq_zero fun x hx => ?_
  obtain ⟨call, -, rfl⟩ := List.mem_map.mp hx
  simp [tag, hstatus.symm]

/-! ### The counters along a run -/

variable [Fintype ι] [Fintype ω] {posts : ι → JobPost} {env : Str → ExecEnv}
  {port : JobIdempotencyStorePort σ}

/-- The number of the jobs that were created and not yet queued. -/
def waitingCount (posts : ι → JobPost) (s : State ι ω σ) : ℕ :=
  (total (fun i => RequestPc.waiting (posts i)) s.request).card

/-- The counters count what has happened to the rows. -/
structure Counted (posts : ι → JobPost) (env : Str → ExecEnv) (w₀ : World σ) (s : State ι ω σ) :
    Prop extends Balanced posts env w₀.repository s where
  settled : ∀ k jobId pc, s.worker k = .executing jobId pc → Settled (env jobId) pc
  terminal : ∀ entry ∈ s.world.executed, entry.2.isTerminal = true
  ended : ∀ success, (s.world.executedWith (statusOf success)).card +
    w₀.metrics.shownJobs.ended success = s.world.metrics.shownJobs.ended success +
      total (fun _ => WorkerPc.unreported success) s.worker
  submitted : s.world.metrics.shownJobs.submitted + total (fun _ => RequestPc.uncounted) s.request +
    waitingCount posts s + w₀.repository.rows.length =
      w₀.metrics.shownJobs.submitted + s.world.repository.rows.length

section Counted

variable {w₀ : World σ} {s : State ι ω σ}

theorem Counted.of_request [DecidableEq ι] (h : Counted posts env w₀ s) {i : ι} {pc' : RequestPc}
    {w' : World σ}
    (heffect : RequestEffect (posts i) (s.request i) s.world pc' w')
    (hleft : ∀ job isReplay, pc' ≠ .handling (.returned job isReplay)) :
    Counted posts env w₀ ⟨w', Function.update s.request i pc', s.worker⟩ := by
  have hbalanced := h.toBalanced.of_request heffect hleft
  have huncounted := total_update (fun _ => RequestPc.uncounted) s.request i pc'
  have hwaiting := congrArg Multiset.card
    (total_update (fun j => RequestPc.waiting (posts j)) s.request i pc')
  have hended := h.ended
  have hsubmitted := h.submitted
  rw [Multiset.card_add, Multiset.card_add] at hwaiting
  unfold waitingCount at hsubmitted
  generalize hpc : s.request i = pc at heffect huncounted hwaiting
  refine { hbalanced with settled := h.settled, terminal := ?_, ended := ?_, submitted := ?_ }
  · cases heffect with
    | quiet _ _ _ _ _ _ _ hexecuted | created _ _ _ hexecuted | enqueued _ _ _ hexecuted =>
      show ∀ entry ∈ w'.executed, _
      rw [hexecuted]
      exact h.terminal
    | counted job => exact h.terminal
  · intro success
    cases heffect with
    | quiet _ _ _ _ _ _ hmetrics hexecuted | created _ _ hmetrics hexecuted
    | enqueued _ _ hmetrics hexecuted =>
      show (World.executedWith _ w').card + _ = w'.metrics.shownJobs.ended success + _
      unfold World.executedWith at hended ⊢
      rw [hexecuted, hmetrics]
      exact hended success
    | counted job =>
      show _ = s.world.metrics.incSubmitted.shownJobs.ended success + _
      rw [MetricsRegistry.shownJobs_incSubmitted]
      exact hended success
  · unfold waitingCount
    dsimp only
    cases heffect with
    | quiet hpc hpc' hcount hcount' hrepository _ hmetrics =>
      rw [← RequestPc.sum_holds, ← RequestPc.sum_holds,
        Finset.sum_eq_zero fun status _ => hpc status,
        Finset.sum_eq_zero fun status _ => hpc' status] at hwaiting
      rw [Multiset.card_zero] at hwaiting
      rw [hmetrics, hrepository]
      omega
    | created hcreate _ hmetrics =>
      have hlength := JobTable.length_create hcreate
      simp only [RequestPc.uncounted, RequestPc.waiting, Multiset.card_zero,
        Multiset.card_singleton] at huncounted hwaiting
      rw [hmetrics]
      omega
    | enqueued hrepository _ hmetrics =>
      simp only [RequestPc.uncounted, RequestPc.waiting, Multiset.card_zero,
        Multiset.card_singleton] at huncounted hwaiting
      rw [hmetrics, hrepository]
      omega
    | counted job =>
      simp only [RequestPc.uncounted, RequestPc.waiting, Multiset.card_zero] at huncounted hwaiting
      rw [MetricsRegistry.shownJobs_incSubmitted]
      dsimp only
      omega

/-- An execution that is over has left its outcome in the row, and is about to report it. -/
theorem Counted.leaves (h : Counted posts env w₀ s) (henv : ∀ jobId, Reports (env jobId)) {k : ω}
    {jobId : Str} {pc : ExecPc} (hk : s.worker k = .executing jobId pc)
    (hleft : (execStep (env jobId) jobId pc s.world.repository).1 = .left) :
    ∃ row', (execStep (env jobId) jobId pc s.world.repository).2.get jobId = some row' ∧
      row'.status = statusOf (env jobId).useCase.isOk ∧
      afterExecution (env jobId) pc = .observing (env jobId).useCase.isOk := by
  obtain ⟨row, hget, hstatus⟩ := h.exists_row hk
  obtain ⟨row', hget', -⟩ := execStep_row (h.pcOk k jobId pc hk).1 hget hstatus
  obtain ⟨hafter, houtcome⟩ := left_of_reports (henv jobId) hget (h.pcOk k jobId pc hk).1
    (h.pcOk k jobId pc hk).2 (h.settled k jobId pc hk) hleft
  exact ⟨row', hget', houtcome row' hget', hafter⟩

theorem Counted.terminal_of_worker (h : Counted posts env w₀ s)
    (henv : ∀ jobId, Reports (env jobId)) {k : ω} {pc' : WorkerPc} {w' : World σ}
    (heffect : WorkerEffect env (s.worker k) s.world pc' w') :
    ∀ entry ∈ w'.executed, entry.2.isTerminal = true := by
  generalize hpc : s.worker k = pc at heffect
  cases heffect with
  | waits | takes | executes | observes | counts => exact h.terminal
  | leaves hleft =>
    obtain ⟨row', hget', hstatus, -⟩ := h.leaves henv hpc hleft
    intro entry hentry
    rw [hget', Option.toList_some, List.map_singleton, List.mem_append,
      List.mem_singleton] at hentry
    rcases hentry with hentry | rfl
    · exact h.terminal entry hentry
    · show row'.status.isTerminal = true
      rw [hstatus]
      unfold statusOf
      split_ifs <;> rfl

theorem Counted.ended_of_worker [DecidableEq ω] (h : Counted posts env w₀ s)
    (henv : ∀ jobId, Reports (env jobId)) {k : ω} {pc' : WorkerPc} {w' : World σ}
    (heffect : WorkerEffect env (s.worker k) s.world pc' w') (success : Bool) :
    (w'.executedWith (statusOf success)).card + w₀.metrics.shownJobs.ended success =
      w'.metrics.shownJobs.ended success +
        total (fun _ => WorkerPc.unreported success) (Function.update s.worker k pc') := by
  have hcount := total_update (fun _ => WorkerPc.unreported success) s.worker k pc'
  have hbefore := h.ended success
  generalize hpc : s.worker k = pc at heffect hcount
  cases heffect with
  | waits | takes | executes =>
    simp only [WorkerPc.unreported, add_zero] at hcount
    rw [hcount]
    exact hbefore
  | leaves hleft =>
    -- the row is terminal from now on, and the report is still to come
    obtain ⟨row', hget', hstatus, hafter⟩ := h.leaves henv hpc hleft
    rw [hafter] at hcount ⊢
    simp only [WorkerPc.unreported, add_zero] at hcount
    rw [hcount]
    unfold World.executedWith at hbefore ⊢
    rw [hget', Option.toList_some, List.map_singleton, List.map_append, List.sum_append,
      Multiset.card_add, List.map_singleton, List.sum_singleton, hstatus, card_tag_statusOf]
    show _ = s.world.metrics.shownJobs.ended success + _
    omega
  | observes ended =>
    simp only [WorkerPc.unreported] at hcount
    rw [add_right_cancel hcount]
    exact hbefore
  | counts ended =>
    simp only [WorkerPc.unreported, add_zero] at hcount
    have hended : (if ended = true then s.world.metrics.incCompleted
        else s.world.metrics.incFailed).shownJobs.ended success =
        s.world.metrics.shownJobs.ended success + if ended = success then 1 else 0 := by
      cases ended <;> cases success <;> simp [JobCounters.ended]
    show (s.world.executedWith (statusOf success)).card + _ =
      _ + total _ (Function.update s.worker k .idle)
    rw [hended]
    omega

theorem Counted.submitted_of_worker (h : Counted posts env w₀ s) {k : ω} {pc' : WorkerPc}
    {w' : World σ} (heffect : WorkerEffect env (s.worker k) s.world pc' w') :
    w'.metrics.shownJobs.submitted + total (fun _ => RequestPc.uncounted) s.request +
      waitingCount posts s + w₀.repository.rows.length =
        w₀.metrics.shownJobs.submitted + w'.repository.rows.length := by
  have hsubmitted := h.submitted
  generalize s.worker k = pc at heffect
  cases heffect with
  | waits | takes | observes => exact hsubmitted
  | executes | leaves =>
    show _ = _ + (execStep _ _ _ _).2.rows.length
    rw [length_execStep]
    exact hsubmitted
  | counts ended =>
    show (if ended = true then s.world.metrics.incCompleted
      else s.world.metrics.incFailed).shownJobs.submitted + _ + _ + _ = _
    cases ended <;> simpa using hsubmitted

theorem Counted.of_worker [DecidableEq ω] (h : Counted posts env w₀ s)
    (henv : ∀ jobId, Reports (env jobId)) {k : ω} {pc' : WorkerPc} {w' : World σ}
    (heffect : WorkerEffect env (s.worker k) s.world pc' w') :
    Counted posts env w₀ ⟨w', s.request, Function.update s.worker k pc'⟩ :=
  { h.toBalanced.of_worker heffect with
    settled := heffect.forall_executing h.settled (fun _ job hjob => by cases hjob)
      fun _ _ _ _ => settled_execStep (henv _)
    terminal := h.terminal_of_worker henv heffect
    ended := h.ended_of_worker henv heffect
    submitted := h.submitted_of_worker heffect }

end Counted

theorem counted_start (posts : ι → JobPost) (env : Str → ExecEnv) {w₀ : World σ}
    (hfresh : w₀.Fresh) : Counted posts env w₀ (start posts w₀ : State ι ω σ) := by
  refine { balanced_start posts env hfresh with
    settled := fun k jobId pc hk => ?_
    terminal := ?_
    ended := fun success => ?_
    submitted := ?_ }
  · cases hk
  · show ∀ entry ∈ w₀.executed, _
    rw [hfresh.executed]
    simp
  · have hexecuted : (start posts w₀ : State ι ω σ).world.executedWith (statusOf success) = 0 := by
      show (w₀.executed.map _).sum = 0
      rw [hfresh.executed]
      rfl
    have hworkers : total (fun _ => WorkerPc.unreported success)
        (start posts w₀ : State ι ω σ).worker = 0 := total_eq_zero fun _ => rfl
    rw [hexecuted, hworkers, Multiset.card_zero, zero_add]
    rfl
  · have huncounted : total (fun _ => RequestPc.uncounted)
        (start posts w₀ : State ι ω σ).request = 0 := by
      refine total_eq_zero fun i => ?_
      show (posts i).start.uncounted = 0
      unfold JobPost.start
      split <;> rfl
    have hwaiting : waitingCount posts (start posts w₀ : State ι ω σ) = 0 := by
      have hnone : total (fun i => RequestPc.waiting (posts i))
          (start posts w₀ : State ι ω σ).request = 0 := by
        refine total_eq_zero fun i => ?_
        show (posts i).start.waiting (posts i) = 0
        unfold JobPost.start
        split <;> rfl
      rw [waitingCount, hnone, Multiset.card_zero]
    rw [huncounted, hwaiting]
    rfl

/-! ### Rows and counters -/

/-- What the job table and the job counters have to do with each other. -/
structure Accounts (posts : ι → JobPost) (w₀ : World σ) (s : State ι ω σ) : Prop where
  /-- A pending job is at a request, in the queue, or at a worker that has not started it. -/
  pending : s.world.repository.idsWith .pending = w₀.repository.idsWith .pending +
    (total (fun i => RequestPc.waiting (posts i)) s.request +
      (s.world.queue.map QueuedCall.jobId : List Str) +
      total (fun _ => WorkerPc.holds .pending) s.worker)
  /-- A running job is at a worker that has started it. -/
  running : s.world.repository.idsWith .running =
    w₀.repository.idsWith .running + total (fun _ => WorkerPc.holds .running) s.worker
  /-- A completed or failed job has been counted, or its worker is about to. -/
  ended : ∀ success, (s.world.repository.idsWith (statusOf success)).card +
    w₀.metrics.shownJobs.ended success = (w₀.repository.idsWith (statusOf success)).card +
      s.world.metrics.shownJobs.ended success +
      total (fun _ => WorkerPc.unreported success) s.worker
  /-- A created job has been counted as submitted, or its request is about to queue or count it. -/
  submitted : s.world.metrics.shownJobs.submitted + total (fun _ => RequestPc.uncounted) s.request +
    (total (fun i => RequestPc.waiting (posts i)) s.request).card + w₀.repository.rows.length =
      w₀.metrics.shownJobs.submitted + s.world.repository.rows.length

theorem Counted.executedWith_eq_zero {w₀ : World σ} {s : State ι ω σ} (h : Counted posts env w₀ s)
    {status : JobStatus} (hstatus : status.isTerminal = false) :
    s.world.executedWith status = 0 := by
  refine List.sum_eq_zero fun x hx => ?_
  obtain ⟨entry, hentry, rfl⟩ := List.mem_map.mp hx
  have hterminal := h.terminal entry hentry
  unfold tag
  rw [if_neg]
  rintro rfl
  rw [hstatus] at hterminal
  cases hterminal

theorem Counted.accounts {w₀ : World σ} {s : State ι ω σ} (h : Counted posts env w₀ s) :
    Accounts posts w₀ s := by
  refine ⟨?_, ?_, fun success => ?_, h.submitted⟩
  · have hwaiting : total (fun i => RequestPc.holds .pending (posts i)) s.request =
        total (fun i => RequestPc.waiting (posts i)) s.request :=
      Finset.sum_congr rfl fun i _ => RequestPc.holds_pending (posts i) (s.request i)
    rw [h.balance, held, h.executedWith_eq_zero rfl, add_zero, World.queued_pending, hwaiting]
  · have hrequests : total (fun i => RequestPc.holds .running (posts i)) s.request = 0 :=
      total_eq_zero fun i => RequestPc.holds_eq_zero (by simp) (posts i) _
    rw [h.balance, held, h.executedWith_eq_zero rfl, add_zero, World.queued_eq_zero (by simp),
      hrequests, zero_add, zero_add]
  · have hterminal : (statusOf success).isTerminal = true := by cases success <;> rfl
    have hne : statusOf success ≠ .pending := by
      intro heq
      rw [heq] at hterminal
      cases hterminal
    have hrequests : total (fun i => RequestPc.holds (statusOf success) (posts i)) s.request = 0 :=
      total_eq_zero fun i => RequestPc.holds_eq_zero hne (posts i) _
    have hworkers : total (fun _ => WorkerPc.holds (statusOf success)) s.worker = 0 :=
      total_eq_zero fun k => WorkerPc.holds_eq_zero hterminal _
    have hended := h.ended success
    rw [h.balance, held, World.queued_eq_zero hne, hrequests, hworkers, zero_add, zero_add,
      zero_add, Multiset.card_add]
    omega

section Runs

variable [DecidableEq ι] [DecidableEq ω]

theorem counted_run {w₀ : World σ} (hfresh : w₀.Fresh) (henv : ∀ jobId, Reports (env jobId))
    (schedule : List (Move ι ω)) :
    Counted posts env w₀ (run (step posts port env) (start posts w₀) schedule) := by
  refine invariant_run (fun move s h => ?_) (counted_start posts env hfresh) schedule
  cases move with
  | request i elapsed =>
    exact h.of_request ((posts i).step_effect port elapsed (h.handles i) s.world)
      ((posts i).step_ne port elapsed (s.request i) s.world)
  | worker k => exact h.of_worker henv (workerStep_effect env (s.worker k) s.world)

/-- **The counters agree with the rows**: if the executions can store and report their outcomes,
then at every moment every row that the process created is accounted for, and the job counters
differ from the rows by the steps that are still to come. -/
theorem counters_agree (posts : ι → JobPost) (port : JobIdempotencyStorePort σ)
    {env : Str → ExecEnv} {w₀ : World σ} (hfresh : w₀.Fresh)
    (henv : ∀ jobId, Reports (env jobId)) (schedule : List (Move ι ω)) :
    Accounts posts w₀ (run (step posts port env) (start posts w₀) schedule) :=
  (counted_run hfresh henv schedule).accounts

end Runs

theorem smoothEnv_reports : Reports smoothEnv where
  running := rfl
  container := rfl
  caught _ h := by simp [smoothEnv] at h
  final := rfl
  hasCallback := rfl

/-- The job is running at one of the workers. -/
theorem counters_agree_onePost :
    Accounts onePost freshProcess
      (run (step onePost (memoryJobIdempotencyStore 60) fun _ => smoothEnv)
        (start onePost freshProcess) (posted ++ List.replicate 3 (.worker 1))) :=
  (counters_agree onePost (memoryJobIdempotencyStore 60) freshProcess_fresh
    (fun _ => smoothEnv_reports)
    (posted ++ List.replicate 3 (.worker 1)) :)

end ApiProcess

end MarketplacePipeline
