import MarketplacePipeline.Jobs.SubmitPipelineJob

/-!
# Submissions one at a time

`execute_of_replay` and `execute_of_new` say what one undisturbed call of `execute` does; it is
what the steps of a request do when no other request moves (`run_solo`).  `deduplicates_iff` is
about histories of calls with one key, some of which fail to create their row.
-/

namespace MarketplacePipeline.SubmitPipelineJobUseCase

open Schedule

variable {σ ι : Type} {port : JobIdempotencyStorePort σ}

/-! ### One call -/

section Programs

variable (port) (now : ℚ) (key : Str) (w : SubmitWorld σ)

@[simp] theorem run_storeReserve (jobId : Str) :
    (storeReserve port now key jobId).run w =
      .ok (port.holder w.store key now).isNone
        { w with store := (port.reserve now key jobId w.store).2 } := by
  rw [← port.reserve_fst now key jobId]
  rfl

@[simp] theorem run_resolveIdempotent :
    (resolveIdempotent port now key).run w =
      .ok ((port.holder w.store key now).bind w.repository.get)
        { w with store := (port.get now key w.store).2 } := by
  have hget : (storeGet port now key).run w =
      .ok (port.holder w.store key now) { w with store := (port.get now key w.store).2 } := by
    rw [← port.get_fst]
    rfl
  rw [resolveIdempotent, EStateM.run_bind, hget]
  cases port.holder w.store key now <;> rfl

end Programs

/-- The store after the lookups of a call that finds no job to replay. -/
def lookedUp (port : JobIdempotencyStorePort σ) (now : ℚ) (key jobId : Str) (store : σ) : σ :=
  let reserved := (port.reserve now key jobId (port.get now key store).2).2
  if port.holder store key now = none then reserved else (port.get now key reserved).2

theorem holder_lookedUp {now t : ℚ} {key jobId k : Str} {store : σ} (ht : now ≤ t) :
    port.holder (lookedUp port now key jobId store) k t =
      if k = key ∧ port.holder store key now = none then
        if t ≤ now + port.ttl then some jobId else none
      else port.holder store k t := by
  have hreserved : port.holder (port.reserve now key jobId (port.get now key store).2).2 k t =
      if k = key ∧ port.holder store key now = none then
        if t ≤ now + port.ttl then some jobId else none
      else port.holder store k t := by
    rw [port.holder_reserve ht, port.holder_get (le_refl now), port.holder_get ht]
  rw [← hreserved, lookedUp]
  by_cases hnone : port.holder store key now = none
  · rw [if_pos hnone]
  · rw [if_neg hnone, port.holder_get ht]

section Execute

variable {submit : PipelineJob → SubmitM σ Unit} {now : ℚ} {job replay : PipelineJob} {key : Str}
  {w : SubmitWorld σ}

/-- A key that stands for a stored job is replayed. -/
theorem execute_of_replay (hkey : key ≠ [])
    (h : (port.holder w.store key now).bind w.repository.get = some replay) :
    (execute (some port) submit now job (some key)).run w =
      .ok (replay, true) { w with store := (port.get now key w.store).2 } := by
  obtain ⟨c, cs, rfl⟩ := List.exists_cons_of_ne_nil hkey
  simp [execute, EStateM.run_bind, h]

/-- Otherwise the call submits its own job, with or without a reservation of its own. -/
theorem execute_of_new (hkey : key ≠ [])
    (h : (port.holder w.store key now).bind w.repository.get = none) :
    (execute (some port) submit now job (some key)).run w =
      (do submit job; pure (job, false) : SubmitM σ (PipelineJob × Bool)).run
        { w with store := lookedUp port now key job.id w.store } := by
  obtain ⟨c, cs, rfl⟩ := List.exists_cons_of_ne_nil hkey
  cases hholder : port.holder w.store (c :: cs) now with
  | none =>
    simp [execute, EStateM.run_bind, hholder, port.holder_get (le_refl now), lookedUp]
  | some existingId =>
    have hmissing : w.repository.get existingId = none := by simpa [hholder] using h
    simp [execute, EStateM.run_bind, hholder, hmissing, port.holder_get (le_refl now),
      port.holder_reserve (le_refl now), lookedUp]

end Execute

/-- A runner whose calls do not fail creates the row and queues the call. -/
theorem run_submitWith (call : Str → QueuedCall) (job : PipelineJob) (w : SubmitWorld σ) :
    (submitWith call {} job).run w =
      match w.repository.create job with
      | none => .error integrityError w
      | some t => .ok () { w with repository := t, queue := w.queue ++ [call job.id] } := by
  cases h : w.repository.create job with
  | none => simp [submitWith, createJob, EStateM.run_bind, h]
  | some t => simp [submitWith, createJob, enqueueCall, EStateM.run_bind, h]

@[simp] theorem run_submitWith_error (call : Str → QueuedCall) (job : PipelineJob)
    (w : SubmitWorld σ) (exc : PyError) (enqueue : Except PyError Unit) :
    (submitWith call { create := .error exc, enqueue } job).run w = .error exc w := by
  simp [submitWith, createJob, EStateM.run_bind]

/-! ### The steps of one request -/

/-- Where a call of `execute` ends. -/
def SubmitPc.ofResult : EStateM.Result PyError (SubmitWorld σ) (PipelineJob × Bool) → SubmitPc
  | .ok (job, isReplay) _ => .returned job isReplay
  | .error exc _ => .raised exc

/-- Seven undisturbed steps of a request, at one reading of the clock, do what `execute` does. -/
theorem run_solo [DecidableEq ι] (reqs : Requests ι σ) (i : ι) (w : SubmitWorld σ) (now : ℚ) :
    run (step reqs) (start w now) (List.replicate 7 (i, 0)) =
      let result := (execute (some reqs.port) (submitWith reqs.call {}) now (reqs.job i)
        (some reqs.key)).run w
      ⟨⟨worldAfter result, now⟩,
        Function.update (fun _ => .storeGet) i (SubmitPc.ofResult result)⟩ := by
  cases hreplay : (reqs.port.holder w.store reqs.key now).bind w.repository.get with
  | some replay =>
    rw [execute_of_replay reqs.key_ne hreplay]
    obtain ⟨existingId, hholder, hrow⟩ := Option.bind_eq_some_iff.mp hreplay
    simp [start, step, stepParty, clockedStep, submitStep, List.replicate, reqs.port.get_fst,
      hholder, hrow, SubmitPc.ofResult, worldAfter]
  | none =>
    rw [execute_of_new reqs.key_ne hreplay, EStateM.run_bind, run_submitWith]
    cases hholder : reqs.port.holder w.store reqs.key now with
    | none =>
      cases hrow : w.repository.create (reqs.job i) <;>
        simp [start, step, stepParty, clockedStep, submitStep, List.replicate, reqs.port.get_fst,
          hholder, hrow, reqs.port.reserve_fst, reqs.port.holder_get (le_refl now), lookedUp,
          SubmitPc.ofResult, worldAfter]
    | some existingId =>
      have hmissing : w.repository.get existingId = none := by simpa [hholder] using hreplay
      cases hrow : w.repository.create (reqs.job i) <;>
        simp [start, step, stepParty, clockedStep, submitStep, List.replicate, reqs.port.get_fst,
          hholder, hrow, hmissing, reqs.port.reserve_fst, reqs.port.holder_get (le_refl now),
          reqs.port.holder_reserve (le_refl now), lookedUp, SubmitPc.ofResult,
          worldAfter]

/-! ### Histories of calls with one key -/

/-- One call of `execute`: its job, the time since the call before, and whether
`job_repository.create` raises. -/
structure SubmitCall where
  job : PipelineJob
  elapsed : ℚ≥0 := 0
  create : Except PyError Unit := .ok ()

/-- What a call does when no job is replayed to it. -/
def SubmitCall.ownOutcome (c : SubmitCall) : Except PyError (PipelineJob × Bool) :=
  c.create.map fun _ => (c.job, false)

/-- The world, the clock and the outcomes of the calls so far. -/
structure History (σ : Type) extends SubmitWorld σ where
  clock : ℚ
  outcomes : List (Except PyError (PipelineJob × Bool)) := []

/-- The next call of a history. -/
def callStep (port : JobIdempotencyStorePort σ) (call : Str → QueuedCall) (key : Str)
    (c : SubmitCall) (h : History σ) : History σ :=
  let now := h.clock + c.elapsed
  match (execute (some port) (submitWith call { create := c.create }) now c.job (some key)).run
    h.toSubmitWorld with
  | .ok outcome w => { toSubmitWorld := w, clock := now, outcomes := h.outcomes ++ [.ok outcome] }
  | .error exc w => { toSubmitWorld := w, clock := now, outcomes := h.outcomes ++ [.error exc] }

/-- Every outcome after the submission of a job replays that job. -/
def Replayed (outcomes : List (Except PyError (PipelineJob × Bool))) : Prop :=
  ∀ pre job post, outcomes = pre ++ .ok (job, false) :: post →
    ∀ outcome ∈ post, outcome = .ok (job, true)

/-- The history created at most one job, and every call after one that did replays that job. -/
structure Deduplicated (before : JobTable) (h : History σ) : Prop where
  one_created : h.repository.rows.length ≤ before.rows.length + 1
  replayed : Replayed h.outcomes

section CallStep

variable (call : Str → QueuedCall) {key : Str} {c : SubmitCall} {h : History σ}

theorem callStep_of_replay (hkey : key ≠ []) {job : PipelineJob}
    (hreplay : (port.holder h.store key (h.clock + c.elapsed)).bind h.repository.get =
      some job) :
    callStep port call key c h =
      { h with
        store := (port.get (h.clock + c.elapsed) key h.store).2
        clock := h.clock + c.elapsed
        outcomes := h.outcomes ++ [.ok (job, true)] } := by
  rw [callStep, execute_of_replay hkey hreplay]

theorem callStep_of_ok (hkey : key ≠ [])
    (hnew : (port.holder h.store key (h.clock + c.elapsed)).bind h.repository.get = none)
    (hcreate : c.create = .ok ()) {t : JobTable} (ht : h.repository.create c.job = some t) :
    callStep port call key c h =
      { store := lookedUp port (h.clock + c.elapsed) key c.job.id h.store
        repository := t
        queue := h.queue ++ [call c.job.id]
        clock := h.clock + c.elapsed
        outcomes := h.outcomes ++ [.ok (c.job, false)] } := by
  rw [callStep, execute_of_new hkey hnew, hcreate, EStateM.run_bind]
  have hsubmit := run_submitWith call c.job
    ⟨lookedUp port (h.clock + c.elapsed) key c.job.id h.store, h.repository, h.queue⟩
  simp only [ht] at hsubmit
  rw [hsubmit]
  rfl

theorem callStep_of_error (hkey : key ≠ [])
    (hnew : (port.holder h.store key (h.clock + c.elapsed)).bind h.repository.get = none)
    {exc : PyError} (hcreate : c.create = .error exc) :
    callStep port call key c h =
      { h with
        store := lookedUp port (h.clock + c.elapsed) key c.job.id h.store
        clock := h.clock + c.elapsed
        outcomes := h.outcomes ++ [.error exc] } := by
  rw [callStep, execute_of_new hkey hnew, hcreate, EStateM.run_bind, run_submitWith_error]

/-- What a call does that submits its own job, if it can create the row. -/
structure SubmitsOwn (port : JobIdempotencyStorePort σ) (key : Str) (c : SubmitCall)
    (h h' : History σ) : Prop where
  store : h'.store = lookedUp port (h.clock + c.elapsed) key c.job.id h.store
  clock : h'.clock = h.clock + c.elapsed
  get_of_ne : ∀ id, id ≠ c.job.id → h'.repository.get id = h.repository.get id
  length : h'.repository.rows.length = h.repository.rows.length + [c].countP (·.create.isOk)
  outcomes : h'.outcomes = h.outcomes ++ [c.ownOutcome]

theorem callStep_submitsOwn (hkey : key ≠ [])
    (hnew : (port.holder h.store key (h.clock + c.elapsed)).bind h.repository.get = none)
    (hfresh : h.repository.get c.job.id = none) :
    SubmitsOwn port key c h (callStep port call key c h) := by
  cases hcreate : c.create with
  | error exc =>
    rw [callStep_of_error call hkey hnew hcreate]
    have hown : c.ownOutcome = .error exc := by simp [SubmitCall.ownOutcome, hcreate, Except.map]
    refine ⟨rfl, rfl, fun _ _ => rfl, ?_, by rw [hown]⟩
    simp [hcreate, Except.isOk, Except.toBool]
  | ok u =>
    obtain ⟨t, ht⟩ := Option.isSome_iff_exists.mp (JobTable.create_isSome_iff.mpr hfresh)
    rw [callStep_of_ok call hkey hnew hcreate ht]
    have hown : c.ownOutcome = .ok (c.job, false) := by
      simp [SubmitCall.ownOutcome, hcreate, Except.map]
    refine ⟨rfl, rfl, fun id hid => ?_, ?_, by rw [hown]⟩
    · rw [JobTable.get_create ht, if_neg hid]
    · rw [JobTable.length_create ht]
      simp [hcreate, Except.isOk, Except.toBool]

end CallStep

section Runs

variable (call : Str → QueuedCall) {key : Str} {deadline : ℚ}

/-- The key is reserved for `jobId` from now until `deadline`. -/
def Reserved (port : JobIdempotencyStorePort σ) (key jobId : Str) (deadline : ℚ) (h : History σ) :
    Prop :=
  ∀ t, h.clock ≤ t → t ≤ deadline → port.holder h.store key t = some jobId

theorem Reserved.mono {jobId : Str} {h h' : History σ}
    (hreserved : Reserved port key jobId deadline h) (hclock : h.clock ≤ h'.clock)
    (hstore : ∀ t, h'.clock ≤ t → t ≤ deadline →
      port.holder h'.store key t = port.holder h.store key t) :
    Reserved port key jobId deadline h' := fun t ht htd => by
  rw [hstore t ht htd]
  exact hreserved t (hclock.trans ht) htd

/-- The time of the next call of a history that stays within the deadline. -/
theorem clock_le {clock : ℚ} {c : SubmitCall} {calls : List SubmitCall}
    (h : clock + (((c :: calls).map SubmitCall.elapsed).sum : ℚ≥0) ≤ deadline) :
    clock ≤ clock + c.elapsed ∧ clock + c.elapsed ≤ deadline ∧
      clock + c.elapsed + ((calls.map SubmitCall.elapsed).sum : ℚ≥0) ≤ deadline := by
  rw [List.map_cons, List.sum_cons, NNRat.coe_add, ← add_assoc] at h
  exact ⟨le_add_of_nonneg_right c.elapsed.2,
    le_trans (le_add_of_nonneg_right (NNRat.coe_nonneg _)) h, h⟩

/-- Once the key stands for a stored job, every call replays it. -/
theorem run_settled (hkey : key ≠ []) (job : PipelineJob) (calls : List SubmitCall)
    (h : History σ) (hreserved : Reserved port key job.id deadline h)
    (hget : h.repository.get job.id = some job)
    (hclock : h.clock + ((calls.map SubmitCall.elapsed).sum : ℚ≥0) ≤ deadline) :
    (run (callStep port call key) h calls).repository = h.repository ∧
      (run (callStep port call key) h calls).outcomes =
        h.outcomes ++ calls.map fun _ => .ok (job, true) := by
  -- every call is a replay, and a replay leaves the reservation and the row to the next one
  induction calls generalizing h with
  | nil => simp
  | cons c calls ih =>
    obtain ⟨hle, hnow, hclock⟩ := clock_le hclock
    -- a replay changes neither the reservation nor the row
    have hstep : callStep port call key c h = _ :=
      callStep_of_replay call hkey (by rw [hreserved _ hle hnow]; exact hget)
    have hreserved' : Reserved port key job.id deadline (callStep port call key c h) := by
      rw [hstep]
      exact hreserved.mono hle fun t ht _ => port.holder_get ht
    obtain ⟨hrepository, houtcomes⟩ := ih _ hreserved' (by rw [hstep]; exact hget)
      (by rw [hstep]; exact hclock)
    rw [run_cons, hrepository, houtcomes, hstep]
    simp

/-- The key is reserved for a job that was never created, and the calls to come have fresh jobs of
their own. -/
structure Dangling (port : JobIdempotencyStorePort σ) (key jobId : Str) (deadline : ℚ)
    (calls : List SubmitCall) (h : History σ) : Prop where
  reserved : Reserved port key jobId deadline h
  missing : h.repository.get jobId = none
  ne_jobId : ∀ c ∈ calls, c.job.id ≠ jobId
  nodup : (calls.map (·.job.id)).Nodup
  fresh : ∀ c ∈ calls, h.repository.get c.job.id = none
  window : h.clock + ((calls.map SubmitCall.elapsed).sum : ℚ≥0) ≤ deadline

/-- A call that finds a dangling reservation submits its own job, and leaves the reservation. -/
theorem Dangling.step (hkey : key ≠ []) {jobId : Str} {c : SubmitCall} {calls : List SubmitCall}
    {h : History σ} (hd : Dangling port key jobId deadline (c :: calls) h) :
    Dangling port key jobId deadline calls (callStep port call key c h) ∧
      SubmitsOwn port key c h (callStep port call key c h) := by
  obtain ⟨hle, hnow, hwindow⟩ := clock_le hd.window
  have hholder := hd.reserved _ hle hnow
  have hnew : (port.holder h.store key (h.clock + c.elapsed)).bind h.repository.get = none := by
    rw [hholder]
    exact hd.missing
  have hown := callStep_submitsOwn call hkey hnew (hd.fresh c (by simp))
  have hnodup := hd.nodup
  rw [List.map_cons, List.nodup_cons] at hnodup
  refine ⟨⟨?_, ?_, fun c' hc' => hd.ne_jobId c' (by simp [hc']), hnodup.2, fun c' hc' => ?_, ?_⟩,
    hown⟩
  · -- the call fails to reserve the key and leaves its holder in place
    refine hd.reserved.mono (by rw [hown.clock]; exact hle) fun t ht _ => ?_
    rw [hown.clock] at ht
    rw [hown.store, holder_lookedUp ht, hholder]
    simp
  · rw [hown.get_of_ne _ (hd.ne_jobId c (by simp)).symm]
    exact hd.missing
  · rw [hown.get_of_ne _ fun hid => hnodup.1 (by rw [← hid]; exact List.mem_map_of_mem hc')]
    exact hd.fresh c' (by simp [hc'])
  · rw [hown.clock]
    exact hwindow

/-- While the key stands for a job that was never created, every call submits its own job. -/
theorem run_dangling (hkey : key ≠ []) {jobId : Str} (calls : List SubmitCall) (h : History σ)
    (hd : Dangling port key jobId deadline calls h) :
    (run (callStep port call key) h calls).repository.rows.length =
        h.repository.rows.length + calls.countP (·.create.isOk) ∧
      (run (callStep port call key) h calls).outcomes =
        h.outcomes ++ calls.map SubmitCall.ownOutcome := by
  induction calls generalizing h with
  | nil => simp
  | cons c calls ih =>
    obtain ⟨hrest, hown⟩ := hd.step call hkey
    obtain ⟨hrows, houtcomes⟩ := ih _ hrest
    rw [run_cons, hrows, houtcomes, hown.length, hown.outcomes, List.map_cons]
    refine ⟨?_, by simp⟩
    rw [Nat.add_assoc, ← List.countP_append, List.singleton_append]

end Runs

/-! ### When a history deduplicates -/

theorem replayed_settled (job : PipelineJob) (calls : List SubmitCall) :
    Replayed (.ok (job, false) :: calls.map fun _ => .ok (job, true)) := by
  intro pre job' post h
  cases pre with
  | nil =>
    obtain ⟨hjob, hpost⟩ := List.cons.inj h
    obtain ⟨rfl, -⟩ := Prod.mk.inj (Except.ok.inj hjob)
    intro outcome houtcome
    rw [← hpost] at houtcome
    obtain ⟨-, -, rfl⟩ := List.mem_map.mp houtcome
    rfl
  | cons outcome pre =>
    have hmem : (.ok (job', false) : Except PyError (PipelineJob × Bool)) ∈
        calls.map fun _ => .ok (job, true) := by
      rw [(List.cons.inj h).2]
      simp
    obtain ⟨-, -, hbad⟩ := List.mem_map.mp hmem
    cases hbad

/-- Calls that all submit their own job deduplicate only if at most the last one succeeds. -/
theorem replayed_ownOutcome_iff (calls : List SubmitCall) :
    (calls.countP (·.create.isOk) ≤ 1 ∧ Replayed (calls.map SubmitCall.ownOutcome)) ↔
      ∀ c ∈ calls.dropLast, c.create.isOk = false := by
  rcases List.eq_nil_or_concat calls with rfl | ⟨init, last, rfl⟩
  · simp [Replayed]
  rw [List.concat_eq_append, List.dropLast_concat]
  constructor
  · rintro ⟨-, hreplayed⟩ c hc
    by_contra hok
    obtain ⟨pre, post, rfl⟩ := List.append_of_mem hc
    have hown : c.ownOutcome = .ok (c.job, false) := by
      cases hcreate : c.create with
      | error exc => simp [hcreate, Except.isOk, Except.toBool] at hok
      | ok u => simp [SubmitCall.ownOutcome, hcreate, Except.map]
    have hlast := hreplayed (pre.map SubmitCall.ownOutcome) c.job
      ((post ++ [last]).map SubmitCall.ownOutcome) (by simp [hown]) last.ownOutcome (by simp)
    cases hcreate : last.create <;> simp [SubmitCall.ownOutcome, hcreate, Except.map] at hlast
  · intro hinit
    refine ⟨?_, fun pre job post h => ?_⟩
    · rw [List.countP_append, List.countP_eq_zero.mpr (by simpa using hinit), Nat.zero_add]
      exact List.countP_le_length
    · -- an outcome behind the submission puts the submission among the first calls
      rcases List.eq_nil_or_concat post with rfl | ⟨post, outcome, rfl⟩
      · simp
      rw [List.concat_eq_append, List.map_append, List.map_singleton, ← List.cons_append,
        ← List.append_assoc] at h
      have hmem : (.ok (job, false) : Except PyError (PipelineJob × Bool)) ∈
          init.map SubmitCall.ownOutcome := by
        rw [(List.append_inj' h rfl).1]
        simp
      obtain ⟨c, hc, hown⟩ := List.mem_map.mp hmem
      have herror := hinit c hc
      cases hcreate : c.create with
      | error exc => simp [SubmitCall.ownOutcome, hcreate, Except.map] at hown
      | ok u => simp [hcreate, Except.isOk, Except.toBool] at herror

/-! The first call of a history, made while nobody holds its key. -/

section FirstCall

variable (call : Str → QueuedCall) {key : Str} {w : SubmitWorld σ} {clock : ℚ} {c : SubmitCall}

theorem holder_of_unused (hunused : port.holder w.store key clock = none) :
    port.holder w.store key (clock + c.elapsed) = none :=
  port.holder_expired hunused (le_add_of_nonneg_right c.elapsed.2)

/-- The first call reserves the key for its own job. -/
theorem reserved_lookedUp (hunused : port.holder w.store key clock = none) (t : ℚ)
    (ht : clock + c.elapsed ≤ t) (htd : t ≤ clock + c.elapsed + port.ttl) :
    port.holder (lookedUp port (clock + c.elapsed) key c.job.id w.store) key t =
      some c.job.id := by
  rw [holder_lookedUp ht, if_pos ⟨rfl, holder_of_unused hunused⟩, if_pos htd]

variable (hkey : key ≠ []) (hunused : port.holder w.store key clock = none)
  (calls : List SubmitCall)
  (hwindow : ((calls.map SubmitCall.elapsed).sum : ℚ≥0) ≤ port.ttl)

include hkey hunused hwindow

/-- When the first call succeeds, all others replay its job. -/
theorem run_of_first_ok (hcreate : c.create = .ok ())
    (hfresh : w.repository.get c.job.id = none) :
    (run (callStep port call key) ⟨w, clock, []⟩ (c :: calls)).repository.rows.length =
        w.repository.rows.length + 1 ∧
      (run (callStep port call key) ⟨w, clock, []⟩ (c :: calls)).outcomes =
        .ok (c.job, false) :: calls.map fun _ => .ok (c.job, true) := by
  have hnew : (port.holder w.store key (clock + c.elapsed)).bind w.repository.get = none := by
    rw [holder_of_unused hunused]
    rfl
  obtain ⟨t, ht⟩ := Option.isSome_iff_exists.mp (JobTable.create_isSome_iff.mpr hfresh)
  have hstep : callStep port call key c ⟨w, clock, []⟩ = _ :=
    callStep_of_ok call hkey hnew hcreate ht
  obtain ⟨hrepository, houtcomes⟩ := run_settled call hkey c.job calls
    (callStep port call key c ⟨w, clock, []⟩) (by rw [hstep]; exact reserved_lookedUp hunused)
    (by rw [hstep, JobTable.get_create ht, if_pos rfl])
    (by rw [hstep]; exact add_le_add_right hwindow _)
  rw [run_cons, hrepository, houtcomes, hstep, JobTable.length_create ht]
  exact ⟨rfl, rfl⟩

/-- When the first call raises, its reservation stays and every call submits its own job. -/
theorem run_of_first_error {exc : PyError} (hcreate : c.create = .error exc)
    (hnodup : ((c :: calls).map (·.job.id)).Nodup)
    (hfresh : ∀ c' ∈ c :: calls, w.repository.get c'.job.id = none) :
    (run (callStep port call key) ⟨w, clock, []⟩ (c :: calls)).repository.rows.length =
        w.repository.rows.length + (c :: calls).countP (·.create.isOk) ∧
      (run (callStep port call key) ⟨w, clock, []⟩ (c :: calls)).outcomes =
        (c :: calls).map SubmitCall.ownOutcome := by
  rw [List.map_cons, List.nodup_cons] at hnodup
  have hnew : (port.holder w.store key (clock + c.elapsed)).bind w.repository.get = none := by
    rw [holder_of_unused hunused]
    rfl
  have hstep : callStep port call key c ⟨w, clock, []⟩ = _ :=
    callStep_of_error call hkey hnew hcreate
  have hd : Dangling port key c.job.id (clock + c.elapsed + port.ttl) calls
      (callStep port call key c ⟨w, clock, []⟩) := by
    rw [hstep]
    refine ⟨reserved_lookedUp hunused, hfresh c (by simp), fun c' hc' hid => ?_, hnodup.2,
      fun c' hc' => hfresh c' (by simp [hc']), add_le_add_right hwindow _⟩
    exact hnodup.1 (by rw [← hid]; exact List.mem_map_of_mem hc')
  obtain ⟨hrows, houtcomes⟩ := run_dangling call hkey calls _ hd
  rw [run_cons, hrows, houtcomes, hstep]
  simp [SubmitCall.ownOutcome, hcreate, Except.isOk, Except.toBool, Except.map]

end FirstCall

/-- **When a history deduplicates**: the calls within one TTL window create at most one job, and
replay it, exactly when the first call succeeds or all calls but the last one raise. -/
theorem deduplicates_iff (port : JobIdempotencyStorePort σ) (call : Str → QueuedCall) {key : Str}
    (hkey : key ≠ []) (w : SubmitWorld σ) (clock : ℚ) (calls : List SubmitCall)
    (hunused : port.holder w.store key clock = none) (hnodup : (calls.map (·.job.id)).Nodup)
    (hfresh : ∀ c ∈ calls, w.repository.get c.job.id = none)
    (hwindow : ((calls.tail.map SubmitCall.elapsed).sum : ℚ≥0) ≤ port.ttl) :
    Deduplicated w.repository (run (callStep port call key) ⟨w, clock, []⟩ calls) ↔
      (∃ c ∈ calls.head?, c.create.isOk = true) ∨
        ∀ c ∈ calls.dropLast, c.create.isOk = false := by
  cases calls with
  | nil => simpa using ⟨by simp, by simp [Replayed]⟩
  | cons c calls =>
    cases hcreate : c.create with
    | ok u =>
      obtain ⟨hrows, houtcomes⟩ := run_of_first_ok call hkey hunused calls hwindow hcreate
        (hfresh c (by simp))
      refine iff_of_true ⟨hrows.le, ?_⟩ (Or.inl ⟨c, rfl, by rw [hcreate]; rfl⟩)
      rw [houtcomes]
      exact replayed_settled c.job calls
    | error exc =>
      obtain ⟨hrows, houtcomes⟩ := run_of_first_error call hkey hunused calls hwindow hcreate
        hnodup hfresh
      have hfirst : ¬ ∃ c' ∈ (c :: calls).head?, c'.create.isOk = true := by
        simp [hcreate, Except.isOk, Except.toBool]
      rw [or_iff_right hfirst, ← replayed_ownOutcome_iff, ← houtcomes]
      constructor
      · exact fun h => ⟨by have := h.one_created; omega, h.replayed⟩
      · exact fun h => ⟨by rw [hrows]; exact Nat.add_le_add_left h.1 _, h.2⟩

/-! ### Three calls -/

/-- Three pending jobs. -/
def jobOf (n : ℕ) : PipelineJob where
  id := Nat.toDigits 10 n
  createdAt := 0
  collectionTarget := 5

/-- A process that has not served any request. -/
def freshWorld : SubmitWorld ReservationEntries where
  store _ := none
  repository := JobTable.empty
  queue := []

/-- The database is not reachable. -/
def databaseDown : PyError := ⟨.exception, "connection refused".toList⟩

theorem deduplicates_iff_two_calls :
    Deduplicated JobTable.empty
        (run (callStep (memoryJobIdempotencyStore 86400) .execute "k".toList)
          ⟨freshWorld, 0, []⟩ [{ job := jobOf 1 }, { job := jobOf 2, elapsed := 5 }]) ↔
      (∃ c ∈ ([{ job := jobOf 1 }, { job := jobOf 2, elapsed := 5 }] : List SubmitCall).head?,
          c.create.isOk = true) ∨
        ∀ c ∈ ([{ job := jobOf 1 }, { job := jobOf 2, elapsed := 5 }] : List SubmitCall).dropLast,
          c.create.isOk = false :=
  deduplicates_iff (memoryJobIdempotencyStore 86400) .execute (by decide) freshWorld 0
    [{ job := jobOf 1 }, { job := jobOf 2, elapsed := 5 }] rfl (by decide) (by decide)
    (by decide +kernel)

/-- When the first call cannot create its row, the two calls after it create a job each. -/
theorem not_deduplicated_after_failure :
    ¬ ∀ (call : Str → QueuedCall) (key : Str) (calls : List SubmitCall), key ≠ [] →
      (calls.map (·.job.id)).Nodup → (calls.map SubmitCall.elapsed).sum ≤ 86400 →
      Deduplicated JobTable.empty (run (callStep (memoryJobIdempotencyStore 86400) call key)
        ⟨freshWorld, 0, []⟩ calls) := by
  intro hall
  have h := (hall .execute "k".toList
    [{ job := jobOf 1, create := .error databaseDown }, { job := jobOf 2 }, { job := jobOf 3 }]
    (by decide) (by decide) (by decide +kernel)).one_created
  have htwo : (run (callStep (memoryJobIdempotencyStore 86400) .execute "k".toList)
      ⟨freshWorld, 0, []⟩ [{ job := jobOf 1, create := .error databaseDown }, { job := jobOf 2 },
        { job := jobOf 3 }]).repository.rows.length = 2 := by decide +kernel
  rw [htwo] at h
  exact absurd h (by decide)

end MarketplacePipeline.SubmitPipelineJobUseCase
