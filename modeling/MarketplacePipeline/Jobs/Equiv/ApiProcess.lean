import MarketplacePipeline.Algorithm.Accounting
import MarketplacePipeline.Jobs.ApiProcess
import MarketplacePipeline.Jobs.Equiv.Deliveries
import MarketplacePipeline.Jobs.StatusAccounts

/-!
# The accounts of an API process

`RequestEffect` and `WorkerEffect` say once what a step of a request or of a worker can do.  The
invariant `Balanced` follows from them: for each status, the rows with that status are those of
before and the jobs that somebody holds in a place where the row has that status.
-/

namespace MarketplacePipeline

open Schedule Accounting

/-- The columns of a row that no `update` touches. -/
def PipelineJob.createdFields (job : PipelineJob) : Str × Timestamp × ℤ × Option Str :=
  (job.id, job.createdAt, job.collectionTarget, job.correlationId)

namespace Executor

/-- The status that the row of an execution has while it stands at a place. -/
def rowStatus : ExecPc → Option JobStatus
  | .delivered | .starting _ => some .pending
  | .working _ | .settling _ => some .running
  | .left => none

theorem exists_rowStatus {pc : ExecPc} (h : pc ≠ .left) : ∃ status, rowStatus pc = some status := by
  cases pc with
  | delivered | starting => exact ⟨.pending, rfl⟩
  | working | settling => exact ⟨.running, rfl⟩
  | left => exact absurd rfl h

section ExecStep

variable {env : ExecEnv} {jobId : Str} {pc : ExecPc} {t : JobTable} {row : PipelineJob}

/-- A step of an execution leaves every other row alone. -/
theorem get_execStep_of_ne (hpc : PcOk env jobId pc) {other : Str} (hother : other ≠ jobId) :
    (execStep env jobId pc t).2.get other = t.get other := by
  rw [execStep_snd]
  cases hw : written env pc with
  | none => rfl
  | some job =>
    obtain ⟨hid, -⟩ := written_eq hpc hw
    show (t.update job).get other = _
    rw [JobTable.get_update, if_neg (by rw [hid]; exact hother)]

/-- A step that does not write keeps its place in the lifecycle, or is the last one. -/
theorem rowStatus_of_not_written (hw : written env pc = none) (hget : t.get jobId = some row)
    (hrow : rowStatus pc = some row.status) :
    rowStatus (execStep env jobId pc t).1 = some row.status ∨
      (execStep env jobId pc t).1 = .left := by
  cases pc with
  | delivered => simpa [execStep, hget, rowStatus] using hrow
  | starting job =>
    cases hrunning : env.runningUpdate with
    | error exc => exact Or.inr (by simp [execStep, hrunning])
    | ok _ => simp [written, hrunning] at hw
  | working job =>
    cases hcontainer : env.container with
    | error exc => exact Or.inr (by simp [execStep, hcontainer])
    | ok _ => simpa [execStep, hcontainer, rowStatus] using hrow
  | settling job =>
    cases hfinal : env.finalUpdate with
    | error exc => exact Or.inr (by simp [execStep, hfinal])
    | ok _ => simp [written, hfinal] at hw
  | left => cases hrow

theorem rowStatus_of_written {job : PipelineJob} (hpc : PcOk env jobId pc)
    (hw : written env pc = some job) :
    rowStatus (execStep env jobId pc t).1 = some job.status ∨
      (execStep env jobId pc t).1 = .left := by
  obtain ⟨-, -, hrunning⟩ := written_eq hpc hw
  cases pc with
  | starting job' =>
    have hupdate : env.runningUpdate = .ok () := by
      cases h : env.runningUpdate with
      | error exc => simp [written, h] at hw
      | ok _ => rfl
    refine Or.inl ?_
    rw [hrunning id]
    simp [execStep, hupdate, rowStatus]
  | settling job' =>
    have hupdate : env.finalUpdate = .ok () := by
      cases h : env.finalUpdate with
      | error exc => simp [written, h] at hw
      | ok _ => rfl
    exact Or.inr (by simp [execStep, hupdate])
  | delivered | working | left => cases hw

theorem legalMove_of_written {job : PipelineJob} (hpc : PcOk env jobId pc)
    (hrow : rowStatus pc = some row.status) (hw : written env pc = some job) :
    LegalMove row (row.overwrite job) := by
  obtain ⟨-, hnotPending, hrunning⟩ := written_eq hpc hw
  refine (legalMove_overwrite_iff hnotPending fun hpending => hrunning ?_).mpr
    fun hterminal => ?_
  · -- an execution past its `RUNNING` update stands on a running row
    rw [hpending] at hrow
    cases pc <;> simp [rowStatus, Past] at hrow ⊢
  · -- an execution never stands on a terminal row
    cases hstatus : row.status <;> rw [hstatus] at hrow hterminal <;>
      cases pc <;> simp [rowStatus, JobStatus.isTerminal] at hrow hterminal

/-- What a step of an execution makes of the row of its job, if the row stands where the execution
does. -/
theorem execStep_row (hpc : PcOk env jobId pc) (hget : t.get jobId = some row)
    (hrow : rowStatus pc = some row.status) :
    ∃ row', (execStep env jobId pc t).2.get jobId = some row' ∧
      (LegalMove row row' ∧ row'.createdFields = row.createdFields) ∧
      (rowStatus (execStep env jobId pc t).1 = some row'.status ∨
        (execStep env jobId pc t).1 = .left) ∧
      ∀ status, (execStep env jobId pc t).2.idsWith status + tag status row.status jobId =
        t.idsWith status + tag status row'.status jobId := by
  cases hw : written env pc with
  | none =>
    have hsnd : (execStep env jobId pc t).2 = t := by rw [execStep_snd, hw]
    rw [hsnd]
    exact ⟨row, hget, ⟨LegalMove.refl row, rfl⟩, rowStatus_of_not_written hw hget hrow,
      fun _ => rfl⟩
  | some job =>
    obtain ⟨hid, -⟩ := written_eq hpc hw
    have hsnd : (execStep env jobId pc t).2 = t.update job := by rw [execStep_snd, hw]
    rw [hsnd]
    have hget' : t.get job.id = some row := by
      rw [hid]
      exact hget
    refine ⟨row.overwrite job, ?_, ⟨legalMove_of_written hpc hrow hw, rfl⟩, ?_,
      fun status => ?_⟩
    · rw [JobTable.get_update, if_pos hid.symm, hget, Option.map_some]
    · rw [PipelineJob.overwrite_status]
      exact rowStatus_of_written hpc hw
    · have hids := JobTable.idsWith_update hget' status
      rw [hid] at hids
      exact hids

end ExecStep

end Executor

namespace ApiProcess

open Executor SubmitPipelineJobUseCase

variable {σ ι ω : Type}

/-! ### What the parties hold -/

/-- The job that has its row but is not yet queued, under the status of the row. -/
def RequestPc.holds (status : JobStatus) (post : JobPost) : RequestPc → Multiset Str
  | .handling .enqueue => tag status .pending post.job.id
  | _ => 0

/-- The request has queued a job that is not yet counted as submitted. -/
def RequestPc.uncounted : RequestPc → ℕ
  | .counting _ => 1
  | _ => 0

/-- The job that a worker executes, under the status of its row. -/
def WorkerPc.holds (status : JobStatus) : WorkerPc → Multiset Str
  | .executing jobId pc =>
    match rowStatus pc with
    | some rowStatus => tag status rowStatus jobId
    | none => 0
  | _ => 0

theorem afterExecution_ne (env : ExecEnv) (pc : ExecPc) (jobId : Str) (pc' : ExecPc) :
    afterExecution env pc ≠ .executing jobId pc' := by
  unfold afterExecution
  split <;> simp

theorem holds_afterExecution (status : JobStatus) (env : ExecEnv) (pc : ExecPc) :
    WorkerPc.holds status (afterExecution env pc) = 0 := by
  unfold afterExecution
  split <;> rfl

/-- The jobs in the queue, which are pending. -/
def World.queued (status : JobStatus) (w : World σ) : Multiset Str :=
  (w.queue.map fun call => tag status .pending call.jobId).sum

/-- The jobs whose execution is over, under the status that it left them with. -/
def World.executedWith (status : JobStatus) (w : World σ) : Multiset Str :=
  (w.executed.map fun entry => tag status entry.2 entry.1).sum

/-- Where the jobs with a status are: at a request, in the queue, at a worker, or executed. -/
def held [Fintype ι] [Fintype ω] (status : JobStatus) (posts : ι → JobPost) (s : State ι ω σ) :
    Multiset Str :=
  total (fun i => RequestPc.holds status (posts i)) s.request + s.world.queued status +
    total (fun _ => WorkerPc.holds status) s.worker + s.world.executedWith status

/-! ### Steps -/

/-- What a step of a request does. -/
inductive RequestEffect (post : JobPost) : RequestPc → World σ → RequestPc → World σ → Prop
  /-- A call of the idempotency store or a lookup. -/
  | quiet {pc pc' : RequestPc} {w w' : World σ} (hpc : ∀ status, pc.holds status post = 0)
      (hpc' : ∀ status, pc'.holds status post = 0) (huncounted : pc.uncounted = 0)
      (huncounted' : pc'.uncounted = 0) (hrepository : w'.repository = w.repository)
      (hqueue : w'.queue = w.queue) (hmetrics : w'.metrics = w.metrics)
      (hexecuted : w'.executed = w.executed) : RequestEffect post pc w pc' w'
  | created {w w' : World σ} (hcreate : w.repository.create post.job = some w'.repository)
      (hqueue : w'.queue = w.queue) (hmetrics : w'.metrics = w.metrics)
      (hexecuted : w'.executed = w.executed) :
      RequestEffect post (.handling .create) w (.handling .enqueue) w'
  | enqueued {w w' : World σ} (hrepository : w'.repository = w.repository)
      (hqueue : w'.queue = w.queue ++ [.execute post.job.id]) (hmetrics : w'.metrics = w.metrics)
      (hexecuted : w'.executed = w.executed) :
      RequestEffect post (.handling .enqueue) w (.counting post.job) w'
  | counted {w : World σ} (job : PipelineJob) :
      RequestEffect post (.counting job) w (.answered job false)
        { w with metrics := w.metrics.incSubmitted }

/-- What a step of a worker does. -/
inductive WorkerEffect (env : Str → ExecEnv) : WorkerPc → World σ → WorkerPc → World σ → Prop
  | waits {w : World σ} (hqueue : w.queue = []) : WorkerEffect env .idle w .idle w
  | takes {w : World σ} {call : QueuedCall} {queue : List QueuedCall}
      (hqueue : w.queue = call :: queue) :
      WorkerEffect env .idle w (.executing call.jobId .delivered) { w with queue }
  | executes {w : World σ} {jobId : Str} {pc : ExecPc}
      (hpc : (execStep (env jobId) jobId pc w.repository).1 ≠ .left) :
      WorkerEffect env (.executing jobId pc) w
        (.executing jobId (execStep (env jobId) jobId pc w.repository).1)
        { w with repository := (execStep (env jobId) jobId pc w.repository).2 }
  | leaves {w : World σ} {jobId : Str} {pc : ExecPc}
      (hpc : (execStep (env jobId) jobId pc w.repository).1 = .left) :
      WorkerEffect env (.executing jobId pc) w (afterExecution (env jobId) pc)
        { w with
          repository := (execStep (env jobId) jobId pc w.repository).2
          executed := w.executed ++
            ((execStep (env jobId) jobId pc w.repository).2.get jobId).toList.map
              fun row => (jobId, row.status) }
  | observes {w : World σ} (success : Bool) :
      WorkerEffect env (.observing success) w (.counting success)
        { w with metrics := w.metrics.observeJobDuration }
  | counts {w : World σ} (success : Bool) :
      WorkerEffect env (.counting success) w .idle
        { w with metrics := if success then w.metrics.incCompleted else w.metrics.incFailed }

/-- A request leaves the use case in the step in which it returns. -/
theorem JobPost.afterStep_ne (pc : SubmitPc) (job : PipelineJob) (isReplay : Bool) :
    JobPost.afterStep pc ≠ .handling (.returned job isReplay) := by
  unfold JobPost.afterStep
  split <;> simp
  rename_i hreplay hnew _
  intro h
  cases isReplay with
  | true => exact hreplay job h
  | false => exact hnew job h

theorem JobPost.step_ne (post : JobPost) (port : JobIdempotencyStorePort σ) (elapsed : ℚ≥0)
    (pc : RequestPc) (w : World σ) (job : PipelineJob) (isReplay : Bool) :
    (post.step port elapsed pc w).1 ≠ .handling (.returned job isReplay) := by
  cases pc with
  | handling pc => exact JobPost.afterStep_ne _ job isReplay
  | counting | answered | raised => simp [JobPost.step]

theorem JobPost.step_effect (post : JobPost) (port : JobIdempotencyStorePort σ) (elapsed : ℚ≥0)
    {pc : RequestPc} (hpc : ∀ job isReplay, pc ≠ .handling (.returned job isReplay))
    (w : World σ) :
    RequestEffect post pc w (post.step port elapsed pc w).1 (post.step port elapsed pc w).2 := by
  cases pc with
  | handling pc =>
    cases pc with
    | create =>
      simp only [JobPost.step, clockedStep, submitStep]
      cases hcreate : w.repository.create post.job with
      | none => exact .quiet (fun _ => rfl) (fun _ => rfl) rfl rfl rfl rfl rfl rfl
      | some repository => exact .created hcreate rfl rfl rfl
    | enqueue => exact .enqueued rfl rfl rfl rfl
    | returned job isReplay =>
      exact absurd rfl (hpc job isReplay)
    | storeGet =>
      simp only [JobPost.step, clockedStep, submitStep]
      split <;> exact .quiet (fun _ => rfl) (fun _ => rfl) rfl rfl rfl rfl rfl rfl
    | repositoryGet existingId =>
      simp only [JobPost.step, clockedStep, submitStep]
      split <;> exact .quiet (fun _ => rfl) (fun _ => rfl) rfl rfl rfl rfl rfl rfl
    | reserve =>
      simp only [JobPost.step, clockedStep, submitStep]
      split_ifs <;> exact .quiet (fun _ => rfl) (fun _ => rfl) rfl rfl rfl rfl rfl rfl
    | storeGetAgain =>
      simp only [JobPost.step, clockedStep, submitStep]
      split <;> exact .quiet (fun _ => rfl) (fun _ => rfl) rfl rfl rfl rfl rfl rfl
    | repositoryGetAgain existingId =>
      simp only [JobPost.step, clockedStep, submitStep]
      split <;> exact .quiet (fun _ => rfl) (fun _ => rfl) rfl rfl rfl rfl rfl rfl
    | raised exc => exact .quiet (fun _ => rfl) (fun _ => rfl) rfl rfl rfl rfl rfl rfl
  | counting job => exact .counted job
  | answered job isReplay => exact .quiet (fun _ => rfl) (fun _ => rfl) rfl rfl rfl rfl rfl rfl
  | raised exc => exact .quiet (fun _ => rfl) (fun _ => rfl) rfl rfl rfl rfl rfl rfl

theorem workerStep_effect (env : Str → ExecEnv) (pc : WorkerPc) (w : World σ) :
    WorkerEffect env pc w (workerStep env pc w).1 (workerStep env pc w).2 := by
  cases pc with
  | idle =>
    cases hqueue : w.queue with
    | nil =>
      simp only [workerStep, hqueue]
      exact .waits hqueue
    | cons call queue =>
      simp only [workerStep, hqueue]
      exact .takes hqueue
  | executing jobId pc =>
    cases hpc : (execStep (env jobId) jobId pc w.repository).1 with
    | left =>
      simp only [workerStep, hpc]
      exact .leaves hpc
    | delivered | starting | working | settling =>
      have hne : (execStep (env jobId) jobId pc w.repository).1 ≠ .left := by rw [hpc]; simp
      have h := WorkerEffect.executes hne
      rw [hpc] at h
      simpa only [workerStep, hpc] using h
  | observing success => exact .observes success
  | counting success => exact .counts success

/-- What holds of every execution holds after a step of a worker, if it holds of the executions that
the step makes. -/
theorem WorkerEffect.forall_executing [DecidableEq ω] {env : Str → ExecEnv}
    {holds : Str → ExecPc → Prop} {worker : ω → WorkerPc} {k : ω} {pc' : WorkerPc} {w w' : World σ}
    (heffect : WorkerEffect env (worker k) w pc' w')
    (hall : ∀ l jobId pc, worker l = .executing jobId pc → holds jobId pc)
    (hdelivered : ∀ jobId, holds jobId .delivered)
    (hexecutes : ∀ jobId pc, worker k = .executing jobId pc →
      (execStep (env jobId) jobId pc w.repository).1 ≠ .left →
        holds jobId (execStep (env jobId) jobId pc w.repository).1) :
    ∀ l jobId pc, Function.update worker k pc' l = .executing jobId pc → holds jobId pc := by
  intro l jobId pc hl
  by_cases hlk : l = k
  · subst hlk
    rw [Function.update_self] at hl
    subst hl
    generalize hpc : worker l = pc₀ at heffect
    generalize hnext : WorkerPc.executing jobId pc = pc₁ at heffect
    cases heffect with
    | waits | observes | counts => cases hnext
    | takes hqueue =>
      cases hnext
      exact hdelivered _
    | executes hleft =>
      cases hnext
      exact hexecutes _ _ hpc hleft
    | leaves hleft => exact absurd hnext.symm (afterExecution_ne _ _ jobId pc)
  · rw [Function.update_of_ne hlk] at hl
    exact hall l jobId pc hl

/-! ### The invariant -/

variable [Fintype ι] [Fintype ω]

/-- Every row that the process has created is held by one party. -/
structure Balanced (posts : ι → JobPost) (env : Str → ExecEnv) (t₀ : JobTable)
    (s : State ι ω σ) : Prop where
  handles : ∀ i job isReplay, s.request i ≠ .handling (.returned job isReplay)
  pcOk : ∀ k jobId pc, s.worker k = .executing jobId pc → PcOk (env jobId) jobId pc ∧ pc ≠ .left
  balance : ∀ status,
    s.world.repository.idsWith status = t₀.idsWith status + held status posts s

section Balanced

variable [DecidableEq ι] [DecidableEq ω] {posts : ι → JobPost} {env : Str → ExecEnv}
  {port : JobIdempotencyStorePort σ} {t₀ : JobTable} {s : State ι ω σ}

omit [DecidableEq ι] [DecidableEq ω] in
/-- The row of a job in execution stands where the execution does. -/
theorem Balanced.exists_row (h : Balanced posts env t₀ s) {k : ω} {jobId : Str} {pc : ExecPc}
    (hk : s.worker k = .executing jobId pc) :
    ∃ row, s.world.repository.get jobId = some row ∧ rowStatus pc = some row.status := by
  obtain ⟨status, hstatus⟩ := exists_rowStatus (h.pcOk k jobId pc hk).2
  have hmem : jobId ∈ total (fun _ => WorkerPc.holds status) s.worker := by
    refine mem_total.mpr ⟨k, ?_⟩
    rw [hk]
    simp only [WorkerPc.holds, hstatus]
    exact mem_tag.mpr ⟨rfl, rfl⟩
  have hids : jobId ∈ s.world.repository.idsWith status := by
    rw [h.balance]
    unfold held
    simp only [Multiset.mem_add]
    tauto
  obtain ⟨row, hget, heq⟩ := JobTable.mem_idsWith.mp hids
  exact ⟨row, hget, by rw [hstatus, heq]⟩

omit [DecidableEq ω] in
/-- A request moves one job at a time: into the table, and into the queue. -/
theorem Balanced.of_request (h : Balanced posts env t₀ s) {i : ι} {pc' : RequestPc} {w' : World σ}
    (heffect : RequestEffect (posts i) (s.request i) s.world pc' w')
    (hleft : ∀ job isReplay, pc' ≠ .handling (.returned job isReplay)) :
    Balanced posts env t₀ ⟨w', Function.update s.request i pc', s.worker⟩ := by
  refine ⟨fun j job isReplay => ?_, h.pcOk, fun status => ?_⟩
  · show Function.update s.request i pc' j ≠ _
    by_cases hj : j = i
    · subst hj
      rw [Function.update_self]
      exact hleft job isReplay
    · rw [Function.update_of_ne hj]
      exact h.handles j job isReplay
  · have hbalance := h.balance status
    have hmove := total_update (fun j => RequestPc.holds status (posts j)) s.request i pc'
    unfold held at hbalance ⊢
    dsimp only
    generalize hpc : s.request i = pc at heffect hmove
    cases heffect with
    | quiet hpc hpc' _ _ hrepository hqueue _ hexecuted =>
      rw [hpc, hpc', add_zero, add_zero] at hmove
      rw [hmove, hrepository, hbalance]
      unfold World.queued World.executedWith
      rw [hqueue, hexecuted]
    | created hcreate hqueue _ hexecuted =>
      simp only [RequestPc.holds, add_zero] at hmove
      rw [hmove, JobTable.idsWith_create hcreate, hbalance, (posts i).pending]
      unfold World.queued World.executedWith
      rw [hqueue, hexecuted]
      abel
    | enqueued hrepository hqueue _ hexecuted =>
      simp only [RequestPc.holds, add_zero] at hmove
      rw [hrepository, hbalance, ← hmove]
      unfold World.queued World.executedWith
      rw [hqueue, hexecuted, List.map_append, List.sum_append, List.map_singleton,
        List.sum_singleton]
      simp only [QueuedCall.jobId]
      abel
    | counted job =>
      simp only [RequestPc.holds, add_zero] at hmove
      rw [hmove]
      exact hbalance

omit [DecidableEq ι] in
/-- A worker takes a job from the queue, moves its row on, and leaves it. -/
theorem Balanced.of_worker (h : Balanced posts env t₀ s) {k : ω} {pc' : WorkerPc} {w' : World σ}
    (heffect : WorkerEffect env (s.worker k) s.world pc' w') :
    Balanced posts env t₀ ⟨w', s.request, Function.update s.worker k pc'⟩ := by
  have hrow : ∀ {jobId pc}, s.worker k = .executing jobId pc →
      ∃ row, s.world.repository.get jobId = some row ∧ rowStatus pc = some row.status :=
    fun hk => h.exists_row hk
  refine ⟨h.handles, ?_, fun status => ?_⟩
  · apply heffect.forall_executing h.pcOk
    · exact fun _ => ⟨trivial, by simp⟩
    · intro jobId pc hk hleft
      obtain ⟨row, hget, -⟩ := hrow hk
      exact ⟨(h.pcOk k jobId pc hk).1.execStep hget, hleft⟩
  · have hbalance := h.balance status
    have hmove := total_update (fun _ => WorkerPc.holds status) s.worker k pc'
    unfold held at hbalance ⊢
    dsimp only
    generalize hpc : s.worker k = pc at heffect hmove hrow
    cases heffect with
    | waits =>
      rw [add_left_inj] at hmove
      rw [hmove]
      exact hbalance
    | takes hqueue =>
      simp only [WorkerPc.holds, rowStatus, add_zero] at hmove
      rw [hmove, hbalance]
      unfold World.queued World.executedWith
      rw [hqueue, List.map_cons, List.sum_cons]
      abel
    | @executes _ jobId pc hleft =>
      obtain ⟨row, hget, hstatus⟩ := hrow rfl
      obtain ⟨row', -, -, hplace, hids⟩ := execStep_row (h.pcOk k jobId pc hpc).1 hget hstatus
      simp only [WorkerPc.holds, hstatus, hplace.resolve_right hleft] at hmove
      -- the row and its worker move to the new status together
      apply add_right_cancel (b := tag status row.status jobId)
      rw [hids status, hbalance]
      have hexchange : ∀ {B R Q E T T' a b : Multiset Str}, T' + a = T + b →
          B + (R + Q + T + E) + b = B + (R + Q + T' + E) + a := by
        intro B R Q E T T' a b heq
        calc B + (R + Q + T + E) + b = B + R + Q + E + (T + b) := by abel
          _ = B + R + Q + E + (T' + a) := by rw [heq]
          _ = B + (R + Q + T' + E) + a := by abel
      exact hexchange hmove
    | @leaves _ jobId pc hleft =>
      obtain ⟨row, hget, hstatus⟩ := hrow rfl
      obtain ⟨row', hget', -, -, hids⟩ := execStep_row (h.pcOk k jobId pc hpc).1 hget hstatus
      rw [holds_afterExecution, add_zero] at hmove
      simp only [WorkerPc.holds, hstatus] at hmove
      -- the row moves from the worker to the executed jobs
      apply add_right_cancel (b := tag status row.status jobId)
      rw [hids status, hbalance, ← hmove]
      unfold World.queued World.executedWith
      rw [hget']
      simp only [Option.toList_some, List.map_append, List.map_singleton, List.sum_append,
        List.sum_singleton]
      abel
    | observes success =>
      simp only [WorkerPc.holds, add_zero] at hmove
      rw [hmove]
      exact hbalance
    | counts success =>
      simp only [WorkerPc.holds, add_zero] at hmove
      rw [hmove]
      exact hbalance

end Balanced

end ApiProcess

end MarketplacePipeline
