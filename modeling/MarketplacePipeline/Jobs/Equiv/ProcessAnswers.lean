import MarketplacePipeline.Jobs.Equiv.ProcessAccounts
import Mathlib.Logic.Relation

/-!
# What an API process answers

The job that a request is answered with stays in the table: every later `GET` finds its row, with
the columns that it was created with and at the same place of the lifecycle or further on
(`keeps_answers`).  Each new row belongs to one request, which created it and is answered with it.
-/

namespace MarketplacePipeline.ApiProcess

open Schedule Accounting Executor SubmitPipelineJobUseCase

variable {σ ι ω : Type}

/-! ### One step of a request -/

/-- The job that a request is to be answered with, as soon as it has a row. -/
def RequestPc.answer? (post : JobPost) : RequestPc → Option PipelineJob
  | .handling .enqueue => some post.job
  | .counting job => some job
  | .answered job _ => some job
  | _ => none

/-- The job that a request has created. -/
def RequestPc.created (post : JobPost) : RequestPc → Multiset Str
  | .handling .enqueue => {post.job.id}
  | .counting _ => {post.job.id}
  | .answered _ false => {post.job.id}
  | _ => 0

/-- What is answered is read from the table or written to it. -/
theorem JobPost.step_answer (post : JobPost) (port : JobIdempotencyStorePort σ) (elapsed : ℚ≥0)
    {pc : RequestPc} (hpc : ∀ job isReplay, pc ≠ .handling (.returned job isReplay))
    (w : World σ) {job : PipelineJob}
    (h : (post.step port elapsed pc w).1.answer? post = some job) :
    pc.answer? post = some job ∨
      (post.step port elapsed pc w).2.repository.get job.id = some job := by
  cases pc with
  | counting job' | answered job' isReplay => exact Or.inl h
  | raised exc => cases h
  | handling pc =>
    cases pc with
    | returned job' isReplay => exact absurd rfl (hpc job' isReplay)
    | raised exc => cases h
    | enqueue => exact Or.inl h
    | create =>
      simp only [JobPost.step, clockedStep, submitStep] at h ⊢
      cases hcreate : w.repository.create post.job with
      | none =>
        rw [hcreate] at h
        cases h
      | some repository =>
        rw [hcreate] at h
        obtain rfl := Option.some.inj h
        right
        show repository.get post.job.id = _
        rw [JobTable.get_create hcreate, if_pos rfl]
    | storeGet | storeGetAgain =>
      simp only [JobPost.step, clockedStep, submitStep] at h
      split at h <;> cases h
    | reserve =>
      simp only [JobPost.step, clockedStep, submitStep] at h
      split_ifs at h <;> cases h
    | repositoryGet existingId | repositoryGetAgain existingId =>
      simp only [JobPost.step, clockedStep, submitStep] at h ⊢
      cases hget : w.repository.get existingId with
      | none =>
        rw [hget] at h
        cases h
      | some replay =>
        rw [hget] at h
        obtain rfl := Option.some.inj h
        right
        rw [JobTable.id_of_get hget]
        exact hget

theorem ids_create {t t' : JobTable} {job : PipelineJob} (h : t.create job = some t') :
    t'.ids = t.ids + {job.id} := by
  rw [JobTable.ids_eq_sum, JobTable.ids_eq_sum t,
    Finset.sum_congr rfl fun status _ => JobTable.idsWith_create h status,
    Finset.sum_add_distrib, sum_tag]

/-- A request creates the rows that there are more after its step. -/
theorem JobPost.step_created (post : JobPost) (port : JobIdempotencyStorePort σ) (elapsed : ℚ≥0)
    {pc : RequestPc} (hpc : ∀ job isReplay, pc ≠ .handling (.returned job isReplay))
    (w : World σ) :
    (post.step port elapsed pc w).2.repository.ids + pc.created post =
      w.repository.ids + (post.step port elapsed pc w).1.created post := by
  cases pc with
  | counting job | answered job isReplay => rfl
  | raised exc => rfl
  | handling pc =>
    cases pc with
    | returned job isReplay => exact absurd rfl (hpc job isReplay)
    | raised exc => rfl
    | enqueue => rfl
    | create =>
      simp only [JobPost.step, clockedStep, submitStep]
      cases hcreate : w.repository.create post.job with
      | none => rfl
      | some repository =>
        show repository.ids + 0 = _
        rw [add_zero]
        exact ids_create hcreate
    | storeGet | storeGetAgain | repositoryGet | repositoryGetAgain =>
      simp only [JobPost.step, clockedStep, submitStep]
      split <;> rfl
    | reserve =>
      simp only [JobPost.step, clockedStep, submitStep]
      split_ifs <;> rfl

theorem ids_update (t : JobTable) (job : PipelineJob) : (t.update job).ids = t.ids := by
  show (((t.update job).rows.map PipelineJob.id : List Str) : Multiset Str) = _
  congr 1
  show (t.rows.map _).map PipelineJob.id = t.rows.map PipelineJob.id
  rw [List.map_map]
  apply List.map_congr_left
  intro row _
  show (if row.id = job.id then row.overwrite job else row).id = row.id
  split_ifs <;> rfl

/-- The workers neither create nor delete rows. -/
theorem WorkerEffect.ids_eq {env : Str → ExecEnv} {pc pc' : WorkerPc} {w w' : World σ}
    (h : WorkerEffect env pc w pc' w') : w'.repository.ids = w.repository.ids := by
  have hexec : ∀ (env : ExecEnv) jobId pc (t : JobTable),
      (execStep env jobId pc t).2.ids = t.ids := by
    intro env jobId pc t
    rw [execStep_snd]
    split
    · rfl
    · exact ids_update t _
  cases h with
  | waits | takes | observes | counts => rfl
  | executes | leaves => exact hexec _ _ _ _

/-! ### Answers along a run -/

/-- A row is a job, with the columns that it was created with, after some moves. -/
structure Ahead (job row : PipelineJob) : Prop where
  moves : Relation.ReflTransGen LegalMove job row
  createdFields : row.createdFields = job.createdFields

theorem Ahead.refl (job : PipelineJob) : Ahead job job := ⟨.refl, rfl⟩

theorem Ahead.tail {job row row' : PipelineJob} (h : Ahead job row) (hmove : LegalMove row row')
    (hfields : row'.createdFields = row.createdFields) : Ahead job row' :=
  ⟨h.moves.tail hmove, hfields.trans h.createdFields⟩

/-- A job that was over when it was answered is answered the same ever after. -/
theorem Ahead.eq_of_terminal {job row : PipelineJob} (h : Ahead job row)
    (hterminal : job.status.isTerminal = true) :
    row.status = job.status ∧ row.resultFields = job.resultFields := by
  obtain ⟨hmoves, -⟩ := h
  -- no move leads away from a terminal row
  induction hmoves with
  | refl => exact ⟨rfl, rfl⟩
  | tail _ hmove ih =>
    obtain ⟨hstatus, hresult⟩ := hmove.2 (by rw [ih.1]; exact hterminal)
    exact ⟨hstatus.trans ih.1, hresult.trans ih.2⟩

section Runs

variable [Fintype ι] [Fintype ω] {posts : ι → JobPost} {env : Str → ExecEnv}
  {port : JobIdempotencyStorePort σ} {t₀ : JobTable} {s : State ι ω σ}

/-- What is answered is found, and what is new in the table was created by the requests. -/
structure Answers (posts : ι → JobPost) (env : Str → ExecEnv) (t₀ : JobTable) (s : State ι ω σ) :
    Prop extends Balanced posts env t₀ s where
  found : ∀ i job, (s.request i).answer? (posts i) = some job →
    ∃ row, s.world.repository.get job.id = some row ∧ Ahead job row
  ids_eq : s.world.repository.ids =
    t₀.ids + total (fun i => RequestPc.created (posts i)) s.request

theorem answers_start (posts : ι → JobPost) (env : Str → ExecEnv) {w₀ : World σ}
    (hfresh : w₀.Fresh) : Answers posts env w₀.repository (start posts w₀ : State ι ω σ) := by
  refine { balanced_start posts env hfresh with found := fun i job h => ?_, ids_eq := ?_ }
  · replace h : (posts i).start.answer? (posts i) = some job := h
    unfold JobPost.start at h
    split at h <;> cases h
  · have hnone : total (fun i => RequestPc.created (posts i))
        (start posts w₀ : State ι ω σ).request = 0 := by
      refine total_eq_zero fun i => ?_
      show (posts i).start.created (posts i) = 0
      unfold JobPost.start
      split <;> rfl
    rw [hnone, add_zero]
    rfl

variable [DecidableEq ι] [DecidableEq ω]

theorem Answers.step (h : Answers posts env t₀ s) (move : Move ι ω) :
    Answers posts env t₀ (ApiProcess.step posts port env move s) := by
  -- a row that was found stays, and only moves on in the lifecycle
  have hkept : ∀ {job}, (∃ row, s.world.repository.get job.id = some row ∧ Ahead job row) →
      ∃ row, (ApiProcess.step posts port env move s).world.repository.get job.id = some row ∧
        Ahead job row := by
    rintro job ⟨row, hget, hahead⟩
    apply (h.row_step move hget).imp
    rintro row' ⟨hget', hmove, hfields, -⟩
    exact ⟨hget', hahead.tail hmove hfields⟩
  refine { h.toBalanced.step move with found := fun j job hanswer => ?_, ids_eq := ?_ }
  · cases move with
    | worker k => exact hkept (h.found j job hanswer)
    | request i elapsed =>
      replace hanswer : (Function.update s.request i
        ((posts i).step port elapsed (s.request i) s.world).1 j).answer? (posts j) = some job :=
        hanswer
      by_cases hj : j = i
      · subst hj
        rw [Function.update_self] at hanswer
        rcases (posts j).step_answer port elapsed (h.handles j) s.world hanswer with hold | hnew
        · exact hkept (h.found j job hold)
        · exact ⟨job, hnew, Ahead.refl job⟩
      · rw [Function.update_of_ne hj] at hanswer
        exact hkept (h.found j job hanswer)
  · cases move with
    | worker k =>
      have hids := (workerStep_effect env (s.worker k) s.world).ids_eq
      show (workerStep env (s.worker k) s.world).2.repository.ids = _
      rw [hids]
      exact h.ids_eq
    | request i elapsed =>
      have hcreated := (posts i).step_created port elapsed (h.handles i) s.world
      have hupdate := total_update (fun j => RequestPc.created (posts j)) s.request i
        ((posts i).step port elapsed (s.request i) s.world).1
      apply add_right_cancel (b := (s.request i).created (posts i))
      show ((posts i).step port elapsed (s.request i) s.world).2.repository.ids + _ =
        t₀.ids + total _ (Function.update s.request i _) + _
      rw [hcreated, add_assoc, hupdate, h.ids_eq, add_assoc]

theorem answers_run (posts : ι → JobPost) (port : JobIdempotencyStorePort σ)
    (env : Str → ExecEnv) {w₀ : World σ} (hfresh : w₀.Fresh) (schedule : List (Move ι ω)) :
    Answers posts env w₀.repository
      (run (ApiProcess.step posts port env) (start posts w₀) schedule) :=
  invariant_run (fun move _ h => h.step move) (answers_start posts env hfresh) schedule

/-- **Answers are kept**: whatever the requests and the workers do, the job of every answer is found
by every later lookup, with its created columns, where the answer had it in its lifecycle or further
on, and with the same result if the answer had one; and the rows are those of before and one for
each request that has created its job, so that a replay creates none. -/
theorem keeps_answers (posts : ι → JobPost) (port : JobIdempotencyStorePort σ)
    (env : Str → ExecEnv) {w₀ : World σ} (hfresh : w₀.Fresh) (schedule : List (Move ι ω)) :
    let s := run (ApiProcess.step posts port env) (start posts w₀) schedule
    (∀ i job isReplay, s.request i = .answered job isReplay →
      ∃ row, s.world.repository.get job.id = some row ∧ Ahead job row ∧
        (job.status.isTerminal = true →
          row.status = job.status ∧ row.resultFields = job.resultFields)) ∧
      s.world.repository.ids =
        w₀.repository.ids + total (fun i => RequestPc.created (posts i)) s.request := by
  intro s
  have hanswers : Answers posts env w₀.repository s := answers_run posts port env hfresh schedule
  refine ⟨fun i job isReplay hi => ?_, hanswers.ids_eq⟩
  obtain ⟨row, hget, hahead⟩ := hanswers.found i job (by rw [hi]; rfl)
  exact ⟨row, hget, hahead, hahead.eq_of_terminal⟩

end Runs

/-- The first request is answered and its job is executed, then the second one with its key is
answered: with the job of the first one, which is completed. -/
theorem keeps_answers_replay :
    let s := run (ApiProcess.step (twoPosts (some ['k'])) (memoryJobIdempotencyStore 60)
      fun _ => smoothEnv) (start (twoPosts (some ['k'])) freshProcess)
      (List.replicate 5 (.request 0 1) ++ List.replicate 7 (.worker (1 : Fin 2)) ++
        List.replicate 2 (.request 1 1))
    (∀ i job isReplay, s.request i = .answered job isReplay →
      ∃ row, s.world.repository.get job.id = some row ∧ Ahead job row ∧
        (job.status.isTerminal = true →
          row.status = job.status ∧ row.resultFields = job.resultFields)) ∧
      s.world.repository.ids = freshProcess.repository.ids +
        total (fun i => RequestPc.created (twoPosts (some ['k']) i)) s.request :=
  (keeps_answers (twoPosts (some ['k'])) (memoryJobIdempotencyStore 60) (fun _ => smoothEnv)
    freshProcess_fresh (List.replicate 5 (.request 0 1) ++
      List.replicate 7 (.worker (1 : Fin 2)) ++ List.replicate 2 (.request 1 1)) :)

end MarketplacePipeline.ApiProcess
