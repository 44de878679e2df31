import MarketplacePipeline.Jobs.Equiv.SubmitPipelineJob

/-!
# Submissions whose enqueue call may fail

`submit` writes to two systems, first the job table and then the queue.  A submission that creates
its row and cannot enqueue the call leaves the row behind (`Orphans`); it is the only way a pending
row comes to have no execution, and the only way a submission that raises changes the repository
(`pending_enqueued_iff`).
-/

namespace MarketplacePipeline

open Schedule SubmitPipelineJobUseCase

variable {σ : Type}

/-- The two job runners. -/
inductive JobRunner
  | pipeline
  | celery
  deriving DecidableEq

namespace JobRunner

/-- `job_runner.submit(job)`. -/
def submit : JobRunner → RunnerEnv → PipelineJob → SubmitM σ Unit
  | .pipeline => PipelineJobRunner.submit
  | .celery => CeleryJobRunner.submit

/-- The call that a runner enqueues for a job id. -/
def call : JobRunner → Str → QueuedCall
  | .pipeline => .execute
  | .celery => .executePipelineJobTask

theorem submit_eq (runner : JobRunner) (env : RunnerEnv) (job : PipelineJob) :
    (runner.submit env job : SubmitM σ Unit) = submitWith runner.call env job := by
  cases runner <;> rfl

theorem call_injective (runner : JobRunner) : Function.Injective runner.call := by
  intro jobId jobId' h
  cases runner with
  | pipeline => exact QueuedCall.execute.inj h
  | celery => exact QueuedCall.executePipelineJobTask.inj h

end JobRunner

/-- A submission: its job, and what the two calls that it makes come to. -/
structure Submission where
  job : PipelineJob
  env : RunnerEnv := {}

namespace Submission

variable (runner : JobRunner) (sub : Submission) (w : SubmitWorld σ)

/-- The world after a submission, whether it raised or not. -/
def after : SubmitWorld σ := worldAfter ((runner.submit sub.env sub.job).run w)

/-- The submission creates its row and fails to enqueue the call. -/
def Orphans : Prop :=
  sub.env.create.isOk = true ∧ w.repository.get sub.job.id = none ∧ sub.env.enqueue.isOk = false

instance : Decidable (sub.Orphans w) := inferInstanceAs (Decidable (_ ∧ _))

/-- The ways a submission can end. -/
inductive Ends : EStateM.Result PyError (SubmitWorld σ) Unit → Prop
  /-- No row was created. -/
  | refused (exc : PyError)
      (refused : ¬ (sub.env.create.isOk = true ∧ w.repository.get sub.job.id = none)) :
      Ends (.error exc w)
  /-- The row was created, and the enqueue call raised. -/
  | orphaned (exc : PyError) (t : JobTable) (created : w.repository.create sub.job = some t)
      (orphans : sub.Orphans w) : Ends (.error exc { w with repository := t })
  | enqueued (t : JobTable) (created : w.repository.create sub.job = some t)
      (enqueued : ¬ sub.Orphans w) :
      Ends (.ok () { w with
        repository := t
        queue := w.queue ++ [runner.call sub.job.id] })

/-- The spec of `submit`, whatever the two calls come to. -/
theorem ends : sub.Ends runner w ((runner.submit sub.env sub.job).run w) := by
  obtain ⟨job, create, enqueue⟩ := sub
  rw [runner.submit_eq]
  cases create with
  | error exc =>
    rw [run_submitWith_error]
    exact .refused exc (by simp [Except.isOk, Except.toBool])
  | ok u =>
    cases hcreate : w.repository.create job with
    | none =>
      have htaken : w.repository.get job.id ≠ none := by
        intro hnone
        have hsome := JobTable.create_isSome_iff.mpr hnone
        rw [hcreate] at hsome
        cases hsome
      have hrun : (submitWith runner.call ⟨.ok u, enqueue⟩ job).run w =
          .error integrityError w := by
        simp [submitWith, createJob, EStateM.run_bind, hcreate]
      rw [hrun]
      exact .refused _ fun h => htaken h.2
    | some t =>
      have hfree : w.repository.get job.id = none :=
        JobTable.create_isSome_iff.mp (by rw [hcreate]; rfl)
      cases enqueue with
      | error exc =>
        have hrun : (submitWith runner.call ⟨.ok u, .error exc⟩ job).run w =
            .error exc { w with repository := t } := by
          simp [submitWith, createJob, enqueueCall, EStateM.run_bind, hcreate]
        rw [hrun]
        exact .orphaned exc t hcreate ⟨rfl, hfree, rfl⟩
      | ok u' =>
        have hrun : (submitWith runner.call ⟨.ok u, .ok u'⟩ job).run w =
            .ok () { w with
              repository := t
              queue := w.queue ++ [runner.call job.id] } := by
          simp [submitWith, createJob, enqueueCall, EStateM.run_bind, hcreate]
        rw [hrun]
        refine .enqueued t hcreate fun h => ?_
        exact absurd h.2.2 (by simp [Except.isOk, Except.toBool])

end Submission

/-! ### Pending rows and their executions -/

/-- Every row that is pending has an execution enqueued for it. -/
def PendingEnqueued (runner : JobRunner) (w : SubmitWorld σ) : Prop :=
  ∀ row ∈ w.repository.rows, row.status = .pending → runner.call row.id ∈ w.queue

/-- Every execution that is enqueued is of a stored job. -/
def QueuedStored (runner : JobRunner) (w : SubmitWorld σ) : Prop :=
  ∀ jobId, runner.call jobId ∈ w.queue → w.repository.get jobId ≠ none

theorem rows_create {t t' : JobTable} {job : PipelineJob} (h : t.create job = some t') :
    t'.rows = t.rows ++ [job] := by
  rw [JobTable.create] at h
  split_ifs at h
  rw [← Option.some.inj h]

section Steps

variable {runner : JobRunner} {sub : Submission} {w : SubmitWorld σ}

theorem QueuedStored.after (h : QueuedStored runner w) :
    QueuedStored runner (sub.after runner w) := by
  have hends := sub.ends runner w
  unfold Submission.after
  generalize (runner.submit sub.env sub.job).run w = result at hends ⊢
  cases hends with
  | refused exc refused => exact h
  | orphaned exc t created orphans =>
    intro jobId hjobId
    show t.get jobId ≠ none
    rw [JobTable.get_create created]
    split_ifs
    · simp
    · exact h jobId hjobId
  | enqueued t created enqueued =>
    intro jobId hjobId
    show t.get jobId ≠ none
    rw [JobTable.get_create created]
    split_ifs with hid
    · simp
    · have hold : runner.call jobId ∈ w.queue := by
        rcases List.mem_append.mp hjobId with hold | hnew
        · exact hold
        · exact absurd (runner.call_injective (List.mem_singleton.mp hnew)) hid
      exact h jobId hold

/-- A submission keeps the pending rows enqueued exactly if it does not leave a pending row
behind. -/
theorem pendingEnqueued_after_iff (hstored : QueuedStored runner w) :
    PendingEnqueued runner (sub.after runner w) ↔
      PendingEnqueued runner w ∧ (sub.job.status = .pending → ¬ sub.Orphans w) := by
  have hends := sub.ends runner w
  unfold Submission.after
  generalize (runner.submit sub.env sub.job).run w = result at hends ⊢
  cases hends with
  | refused exc refused =>
    have hno : ¬ sub.Orphans w := fun h => refused ⟨h.1, h.2.1⟩
    simp [worldAfter, hno]
  | orphaned exc t created orphans =>
    have hrows := rows_create created
    -- nothing in the queue can be of the new job
    have hnew : runner.call sub.job.id ∉ w.queue := fun h => hstored _ h orphans.2.1
    constructor
    · intro h
      refine ⟨fun row hrow hpending => ?_, fun hpending => ?_⟩
      · exact h row (by show row ∈ t.rows; rw [hrows]; simp [hrow]) hpending
      · have hqueued := h sub.job (by show sub.job ∈ t.rows; rw [hrows]; simp) hpending
        exact absurd hqueued hnew
    · rintro ⟨h, hpending⟩ row hrow hrowpending
      have hrow' : row ∈ w.repository.rows ++ [sub.job] := by rw [← hrows]; exact hrow
      rcases List.mem_append.mp hrow' with hold | hjob
      · exact h row hold hrowpending
      · rw [List.mem_singleton] at hjob
        rw [hjob] at hrowpending
        exact absurd orphans (hpending hrowpending)
  | enqueued t created enqueued =>
    have hrows := rows_create created
    have hfree : w.repository.get sub.job.id = none :=
      JobTable.create_isSome_iff.mp (by rw [created]; rfl)
    constructor
    · intro h
      refine ⟨fun row hrow hpending => ?_, fun _ => enqueued⟩
      have hqueued := h row (by show row ∈ t.rows; rw [hrows]; simp [hrow]) hpending
      rcases List.mem_append.mp hqueued with hold | hnew
      · exact hold
      · -- the row would have the id of the new job, which was free
        have hid : row.id = sub.job.id := runner.call_injective (List.mem_singleton.mp hnew)
        rw [JobTable.get_eq_none_iff, ← hid] at hfree
        exact absurd (List.mem_map_of_mem hrow) hfree
    · rintro ⟨h, -⟩ row hrow hpending
      have hrow' : row ∈ w.repository.rows ++ [sub.job] := by rw [← hrows]; exact hrow
      rcases List.mem_append.mp hrow' with hold | hjob
      · exact List.mem_append_left _ (h row hold hpending)
      · rw [List.mem_singleton] at hjob
        rw [hjob]
        exact List.mem_append_right _ (List.mem_singleton_self _)

/-- A submission that raises leaves the repository alone exactly if it did not create its row. -/
theorem repository_of_raises_iff :
    (∀ exc w', (runner.submit sub.env sub.job).run w = .error exc w' →
      w'.repository = w.repository) ↔ ¬ sub.Orphans w := by
  have hends := sub.ends runner w
  generalize (runner.submit sub.env sub.job).run w = result at hends ⊢
  cases hends with
  | refused exc refused =>
    have hno : ¬ sub.Orphans w := fun h => refused ⟨h.1, h.2.1⟩
    refine iff_of_true (fun exc' w' h => ?_) hno
    rw [← (EStateM.Result.error.inj h).2]
  | orphaned exc t created orphans =>
    refine iff_of_false (fun h => ?_) (not_not.mpr orphans)
    have heq := congrArg (fun t : JobTable => t.rows.length) (h exc _ rfl)
    have hlen := JobTable.length_create created
    simp only at heq
    omega
  | enqueued t created enqueued =>
    exact iff_of_true (fun exc w' h => by cases h) enqueued

end Steps

/-- **When every pending row is enqueued**: in every state that a sequence of submissions reaches,
exactly if no submission of a pending job creates its row and fails to enqueue the call; and the
submissions that raise leave the repository as it was exactly if none does so at all. -/
theorem pending_enqueued_iff (runner : JobRunner) (w : SubmitWorld σ) (subs : List Submission)
    (hstart : PendingEnqueued runner w) (hstored : QueuedStored runner w) :
    ((∀ pre, pre <+: subs →
          PendingEnqueued runner (run (Submission.after runner) w pre)) ↔
        Meets (Submission.after runner)
          (fun sub w => sub.job.status = .pending → ¬ sub.Orphans w) w subs) ∧
      (Meets (Submission.after runner)
          (fun sub w => ∀ exc w', (runner.submit sub.env sub.job).run w = .error exc w' →
            w'.repository = w.repository) w subs ↔
        Meets (Submission.after runner) (fun sub w => ¬ sub.Orphans w) w subs) := by
  have hstored_step : ∀ (sub : Submission) (w : SubmitWorld σ), QueuedStored runner w → True →
      QueuedStored runner (sub.after runner w) := fun sub w h _ => h.after
  constructor
  · have hpending : ∀ pre, PendingEnqueued runner (run (Submission.after runner) w pre) ↔
        Meets (Submission.after runner)
          (fun sub w => sub.job.status = .pending → ¬ sub.Orphans w) w pre := by
      intro pre
      have hfree : Meets (Submission.after runner) (fun _ _ => True) w pre :=
        meets_iff.mpr fun _ _ _ _ => trivial
      rw [run_iff_meets hstored_step (fun sub w h _ => pendingEnqueued_after_iff h) hstored hfree,
        and_iff_right hstart]
    constructor
    · exact fun h => (hpending subs).mp (h subs List.prefix_rfl)
    · exact fun h pre hpre => (hpending pre).mpr (h.of_prefix hpre)
  · rw [meets_iff, meets_iff]
    refine forall_congr' fun pre => forall_congr' fun sub => forall_congr' fun post =>
      forall_congr' fun _ => repository_of_raises_iff

/-! ### A broker that is not reachable -/

theorem pending_enqueued_iff_two :
    ((∀ pre, pre <+: [{ job := jobOf 1 }, { job := jobOf 2 }] →
          PendingEnqueued .celery (run (Submission.after .celery) freshWorld pre)) ↔
        Meets (Submission.after .celery)
          (fun sub w => sub.job.status = .pending → ¬ sub.Orphans w) freshWorld
          [{ job := jobOf 1 }, { job := jobOf 2 }]) ∧
      (Meets (Submission.after .celery)
          (fun sub w => ∀ exc w', (JobRunner.celery.submit sub.env sub.job).run w = .error exc w' →
            w'.repository = w.repository) freshWorld [{ job := jobOf 1 }, { job := jobOf 2 }] ↔
        Meets (Submission.after .celery) (fun sub w => ¬ sub.Orphans w) freshWorld
          [{ job := jobOf 1 }, { job := jobOf 2 }]) :=
  pending_enqueued_iff .celery freshWorld [{ job := jobOf 1 }, { job := jobOf 2 }]
    (fun _ h => by cases h) (fun _ h => by cases h)

/-- `task.delay` raises: the row is pending, and nothing will run it. -/
theorem not_pendingEnqueued_brokerDown :
    ¬ ∀ (runner : JobRunner) (subs : List Submission),
      PendingEnqueued runner (run (Submission.after runner) freshWorld subs) := by
  intro hall
  have h := hall .celery
    [{ job := jobOf 1, env := { enqueue := .error ⟨.exception, "connection refused".toList⟩ } }]
  have hrow := h (jobOf 1) (by decide +kernel) rfl
  exact absurd hrow (by decide +kernel)

end MarketplacePipeline
