import MarketplacePipeline.Jobs.Equiv.ApiProcess
import Mathlib.Algebra.BigOperators.Group.Finset.Sigma
import Mathlib.Data.Fintype.Basic

/-!
# Jobs and rows along a run of an API process

From a process that has not queued anything, every run keeps the accounts of `Balanced`.  So no job
is lost or executed twice (`executes_once`), and every step moves the rows along their lifecycle
(`keeps_lifecycle`).
-/

namespace MarketplacePipeline.ApiProcess

open Schedule Accounting Executor SubmitPipelineJobUseCase

variable {σ ι ω : Type} [Fintype ι] [Fintype ω] {posts : ι → JobPost} {env : Str → ExecEnv}
  {port : JobIdempotencyStorePort σ}

/-! ### Every run is balanced -/

/-- A process that has not queued or executed anything. -/
structure World.Fresh (w : World σ) : Prop where
  queue : w.queue = []
  executed : w.executed = []

omit [Fintype ι] [Fintype ω] in
theorem holds_start (status : JobStatus) (post : JobPost) :
    RequestPc.holds status post post.start = 0 := by
  unfold JobPost.start
  split <;> rfl

theorem balanced_start (posts : ι → JobPost) (env : Str → ExecEnv) {w₀ : World σ}
    (hfresh : w₀.Fresh) : Balanced posts env w₀.repository (start posts w₀ : State ι ω σ) := by
  refine ⟨fun i job isReplay => ?_, fun k jobId pc hk => ?_, fun status => ?_⟩
  · show (posts i).start ≠ _
    unfold JobPost.start
    split <;> simp
  · cases hk
  · have hrequests : total (fun i => RequestPc.holds status (posts i))
        (start posts w₀ : State ι ω σ).request = 0 :=
      total_eq_zero fun i => holds_start status (posts i)
    have hworkers : total (fun _ => WorkerPc.holds status)
        (start posts w₀ : State ι ω σ).worker = 0 := total_eq_zero fun _ => rfl
    have hqueued : (start posts w₀ : State ι ω σ).world.queued status = 0 := by
      show (w₀.queue.map _).sum = 0
      rw [hfresh.queue]
      rfl
    have hexecuted : (start posts w₀ : State ι ω σ).world.executedWith status = 0 := by
      show (w₀.executed.map _).sum = 0
      rw [hfresh.executed]
      rfl
    unfold held
    rw [hrequests, hworkers, hqueued, hexecuted]
    simp [start]

variable [DecidableEq ι] [DecidableEq ω]

theorem Balanced.step {t₀ : JobTable} {s : State ι ω σ} (h : Balanced posts env t₀ s)
    (move : Move ι ω) : Balanced posts env t₀ (step posts port env move s) := by
  cases move with
  | request i elapsed =>
    exact h.of_request ((posts i).step_effect port elapsed (h.handles i) s.world)
      ((posts i).step_ne port elapsed (s.request i) s.world)
  | worker k => exact h.of_worker (workerStep_effect env (s.worker k) s.world)

theorem balanced_run {w₀ : World σ} (hfresh : w₀.Fresh) (schedule : List (Move ι ω)) :
    Balanced posts env w₀.repository (run (step posts port env) (start posts w₀) schedule) :=
  invariant_run (fun move _ h => h.step move) (balanced_start posts env hfresh) schedule

/-! ### Every job is in one place -/

/-- The job that a request has created and not yet queued. -/
def RequestPc.waiting (post : JobPost) : RequestPc → Multiset Str
  | .handling .enqueue => {post.job.id}
  | _ => 0

/-- The job that a worker executes. -/
def WorkerPc.inHand : WorkerPc → Multiset Str
  | .executing _ .left => 0
  | .executing jobId _ => {jobId}
  | _ => 0

/-- The jobs of the process: created, queued, in execution and executed. -/
def jobs (posts : ι → JobPost) (s : State ι ω σ) : Multiset Str :=
  total (fun i => RequestPc.waiting (posts i)) s.request +
    (s.world.queue.map QueuedCall.jobId : List Str) +
    total (fun _ => WorkerPc.inHand) s.worker + (s.world.executed.map Prod.fst : List Str)

omit [Fintype ι] [Fintype ω] [DecidableEq ι] [DecidableEq ω] in
theorem sum_map_tag {α : Type} (status : α → JobStatus) (jobId : α → Str) (entries : List α) :
    ∑ wanted, (entries.map fun entry => tag wanted (status entry) (jobId entry)).sum =
      (entries.map jobId : List Str) := by
  induction entries with
  | nil => simp
  | cons entry entries ih =>
    simp only [List.map_cons, List.sum_cons, Finset.sum_add_distrib, sum_tag]
    rw [ih, Multiset.singleton_add, Multiset.cons_coe]

omit [Fintype ι] [Fintype ω] [DecidableEq ι] [DecidableEq ω] in
theorem RequestPc.sum_holds (post : JobPost) (pc : RequestPc) :
    ∑ status, pc.holds status post = pc.waiting post := by
  unfold RequestPc.holds RequestPc.waiting
  split <;> simp [sum_tag]

omit [Fintype ι] [Fintype ω] [DecidableEq ι] [DecidableEq ω] in
theorem WorkerPc.sum_holds (pc : WorkerPc) : ∑ status, pc.holds status = pc.inHand := by
  unfold WorkerPc.holds WorkerPc.inHand
  cases pc with
  | executing jobId pc => cases pc <;> simp [rowStatus, sum_tag]
  | idle | observing | counting => simp

omit [DecidableEq ι] [DecidableEq ω] in
theorem sum_held (posts : ι → JobPost) (s : State ι ω σ) :
    ∑ status, held status posts s = jobs posts s := by
  unfold held jobs total World.queued World.executedWith
  simp only [Finset.sum_add_distrib]
  rw [Finset.sum_comm, Finset.sum_congr rfl fun i _ => RequestPc.sum_holds (posts i) (s.request i),
    Finset.sum_comm (s := Finset.univ) (t := (Finset.univ : Finset ω)),
    Finset.sum_congr rfl fun k _ => WorkerPc.sum_holds (s.worker k), sum_map_tag, sum_map_tag]

omit [DecidableEq ι] [DecidableEq ω] in
theorem Balanced.ids_eq {t₀ : JobTable} {s : State ι ω σ} (h : Balanced posts env t₀ s) :
    s.world.repository.ids = t₀.ids + jobs posts s := by
  rw [JobTable.ids_eq_sum, JobTable.ids_eq_sum t₀, ← sum_held, ← Finset.sum_add_distrib]
  exact Finset.sum_congr rfl fun status _ => h.balance status

/-- **No job is lost or executed twice**: at every moment the rows are those of earlier processes
and the jobs of this one, and each of these is in exactly one place: about to be queued, in the
queue, at one worker, or executed. -/
theorem executes_once (posts : ι → JobPost) (port : JobIdempotencyStorePort σ)
    (env : Str → ExecEnv) {w₀ : World σ} (hfresh : w₀.Fresh) (schedule : List (Move ι ω)) :
    let s := run (step posts port env) (start posts w₀) schedule
    s.world.repository.ids = w₀.repository.ids + jobs posts s ∧
      (w₀.repository.ids + jobs posts s).Nodup := by
  intro s
  have hids : s.world.repository.ids = w₀.repository.ids + jobs posts s :=
    (balanced_run hfresh schedule).ids_eq
  exact ⟨hids, hids ▸ s.world.repository.nodup_ids⟩

/-- An API process that has not served any request. -/
def freshProcess : World ReservationEntries where
  store _ := none
  repository := JobTable.empty
  queue := []
  clock := 0
  metrics := {}

theorem freshProcess_fresh : freshProcess.Fresh := ⟨rfl, rfl⟩

/-- The only request of a process. -/
def onePost (_ : Fin 1) : JobPost := ⟨submittedJob, rfl, none⟩

/-- The request is answered. -/
def posted : List (Move (Fin 1) (Fin 2)) := List.replicate 3 (.request 0 1)

/-- Two requests for jobs of their own. -/
def twoPosts (idempotencyKey : Option Str) (i : Fin 2) : JobPost where
  job := { submittedJob with id := submittedJob.id ++ Nat.toDigits 10 i }
  pending := rfl
  idempotencyKey := idempotencyKey

/-- The second request creates its row first, and its job is queued first; one worker executes it,
and the other one has taken the job of the first request. -/
theorem executes_once_twoPosts :
    let s := run (step (twoPosts none) (memoryJobIdempotencyStore 60) fun _ => smoothEnv)
      (start (twoPosts none) freshProcess)
      [.request 1 1, .request 0 1, .request 1 1, .request 0 1, .worker 0, .worker 0,
        .worker (1 : Fin 2)]
    s.world.repository.ids = freshProcess.repository.ids + jobs (twoPosts none) s ∧
      (freshProcess.repository.ids + jobs (twoPosts none) s).Nodup :=
  (executes_once (twoPosts none) (memoryJobIdempotencyStore 60) (fun _ => smoothEnv)
    freshProcess_fresh [.request 1 1, .request 0 1, .request 1 1, .request 0 1, .worker 0,
      .worker 0, .worker (1 : Fin 2)] :)

/-! ### The rows along a run -/

omit [DecidableEq ι] [DecidableEq ω] in
/-- The job that a worker executes is not one of an earlier process. -/
theorem Balanced.not_mem_ids {t₀ : JobTable} {s : State ι ω σ} (h : Balanced posts env t₀ s)
    {k : ω} {jobId : Str} {pc : ExecPc} (hk : s.worker k = .executing jobId pc) :
    jobId ∉ t₀.ids := by
  have hnodup := h.ids_eq ▸ s.world.repository.nodup_ids
  have hmem : jobId ∈ jobs posts s := by
    have hhand : jobId ∈ total (fun _ => WorkerPc.inHand) s.worker := by
      refine mem_total.mpr ⟨k, ?_⟩
      rw [hk]
      have hleft := (h.pcOk k jobId pc hk).2
      cases pc <;> simp_all [WorkerPc.inHand]
    unfold jobs
    simp only [Multiset.mem_add]
    tauto
  exact fun hold => (Multiset.disjoint_left.mp (Multiset.nodup_add.mp hnodup).2.2) hold hmem

/-- What a step may do to a row: nothing, or move it along its lifecycle. -/
theorem Balanced.row_step {t₀ : JobTable} {s : State ι ω σ} (h : Balanced posts env t₀ s)
    (move : Move ι ω) {jobId : Str} {row : PipelineJob}
    (hget : s.world.repository.get jobId = some row) :
    ∃ row', (ApiProcess.step posts port env move s).world.repository.get jobId = some row' ∧
      LegalMove row row' ∧ row'.createdFields = row.createdFields ∧
      (jobId ∈ t₀.ids → row' = row) := by
  have hsame : ∃ row', s.world.repository.get jobId = some row' ∧ LegalMove row row' ∧
      row'.createdFields = row.createdFields ∧ (jobId ∈ t₀.ids → row' = row) :=
    ⟨row, hget, LegalMove.refl row, rfl, fun _ => rfl⟩
  cases move with
  | request i elapsed =>
    have heffect := (posts i).step_effect port elapsed (h.handles i) s.world
    show ∃ row', ((posts i).step port elapsed (s.request i) s.world).2.repository.get jobId =
      some row' ∧ _
    generalize (posts i).step port elapsed (s.request i) s.world = moved at heffect ⊢
    obtain ⟨pc', w'⟩ := moved
    generalize s.request i = pc at heffect
    cases heffect with
    | quiet _ _ _ _ hrepository => rw [hrepository]; exact hsame
    | created hcreate =>
      -- the id of a new row was free
      have hne : jobId ≠ (posts i).job.id := by
        rintro rfl
        have hnone := JobTable.create_isSome_iff.mp (by rw [hcreate]; rfl)
        rw [hnone] at hget
        cases hget
      rw [JobTable.get_create hcreate, if_neg hne]
      exact hsame
    | enqueued hrepository => rw [hrepository]; exact hsame
    | counted => exact hsame
  | worker k =>
    have heffect := workerStep_effect env (s.worker k) s.world
    show ∃ row', (workerStep env (s.worker k) s.world).2.repository.get jobId = some row' ∧ _
    generalize workerStep env (s.worker k) s.world = moved at heffect ⊢
    obtain ⟨pc', w'⟩ := moved
    generalize hpc : s.worker k = pc at heffect
    have hexec : ∀ executed pc, s.worker k = .executing executed pc →
        ∃ row', (execStep (env executed) executed pc s.world.repository).2.get jobId = some row' ∧
          LegalMove row row' ∧ row'.createdFields = row.createdFields ∧
          (jobId ∈ t₀.ids → row' = row) := by
      intro executed pc hk
      have hpcOk := h.pcOk k executed pc hk
      by_cases hjob : jobId = executed
      · subst hjob
        obtain ⟨found, hfound, hstatus⟩ := h.exists_row hk
        obtain rfl : found = row := Option.some.inj (hfound.symm.trans hget)
        obtain ⟨row', hget', ⟨hlegal, hfields⟩, -, -⟩ := execStep_row hpcOk.1 hfound hstatus
        exact ⟨row', hget', hlegal, hfields, fun hold => absurd hold (h.not_mem_ids hk)⟩
      · rw [get_execStep_of_ne hpcOk.1 hjob]
        exact hsame
    cases heffect with
    | waits | takes | observes | counts => exact hsame
    | executes => exact hexec _ _ hpc
    | leaves => exact hexec _ _ hpc

/-- **The lifecycle of a job on the thread pool**: whatever the requests and the workers do, and
whether updates, containers and use cases fail or not, every step keeps every row, with the columns
that it was created with, moves its status along the lifecycle only, leaves a terminal row its
status and its result, and does not touch the row of an earlier process. -/
theorem keeps_lifecycle (posts : ι → JobPost) (port : JobIdempotencyStorePort σ)
    (env : Str → ExecEnv) {w₀ : World σ} (hfresh : w₀.Fresh) (schedule : List (Move ι ω)) :
    Meets (ApiProcess.step posts port env) (fun move s => ∀ jobId row,
      s.world.repository.get jobId = some row →
        ∃ row', (ApiProcess.step posts port env move s).world.repository.get jobId = some row' ∧
          LegalMove row row' ∧ row'.createdFields = row.createdFields ∧
          (jobId ∈ w₀.repository.ids → row' = row))
      (start posts w₀) schedule :=
  meets_iff.mpr fun before move _ _ _ _ hget => (balanced_run hfresh before).row_step move hget

theorem keeps_lifecycle_onePost :
    Meets (ApiProcess.step onePost (memoryJobIdempotencyStore 60) fun _ => smoothEnv)
      (fun move s => ∀ jobId row, s.world.repository.get jobId = some row →
        ∃ row', (ApiProcess.step onePost (memoryJobIdempotencyStore 60) (fun _ => smoothEnv) move
          s).world.repository.get jobId = some row' ∧
          LegalMove row row' ∧ row'.createdFields = row.createdFields ∧
          (jobId ∈ freshProcess.repository.ids → row' = row))
      (start onePost freshProcess) (posted ++ List.replicate 5 (.worker 1)) :=
  keeps_lifecycle onePost (memoryJobIdempotencyStore 60) (fun _ => smoothEnv) freshProcess_fresh
    (posted ++ List.replicate 5 (.worker 1))

end MarketplacePipeline.ApiProcess
