import MarketplacePipeline.Algorithm.Latest
import MarketplacePipeline.Jobs.Equiv.SubmitPipelineJob
import MarketplacePipeline.Jobs.SubmitHistory

/-!
# Submissions with many keys

The specification is a log: a request with a key is answered with the job of the latest request that
submitted a job under this key, if that was at most the TTL ago (`promised`), and submits its own
job otherwise (`Answered`).  The store refines it, since it holds for every key and every later time
what the log promises (`LogInv`).
-/

namespace MarketplacePipeline.SubmitPipelineJobUseCase

open Schedule Latest

variable {σ : Type}

/-! ### The specification -/

namespace SubmitRecord

/-- The request submitted its own job under the key. -/
def submitted (key : Str) (r : SubmitRecord) : Bool :=
  r.idempotencyKey = some key && match r.outcome with
    | .ok (_, isReplay) => !isReplay
    | .error _ => false

/-- The request submitted its own job. -/
structure IsNew (r : SubmitRecord) : Prop where
  outcome : r.outcome = .ok (r.job, false)
  created : r.before.create r.job = some r.after

/-- The request was answered with a stored job, and created none. -/
structure IsReplayOf (r : SubmitRecord) (jobId : Str) : Prop where
  stored : ∃ job, r.before.get jobId = some job ∧ r.outcome = .ok (job, true)
  unchanged : r.after = r.before

/-- The request returned this job. -/
def Returns (r : SubmitRecord) (job : PipelineJob) : Prop :=
  ∃ isReplay, r.outcome = .ok (job, isReplay)

end SubmitRecord

open SubmitRecord

/-- The job id that a key stands for at a time, after these requests. -/
def promised (ttl : ℚ) (records : List SubmitRecord) (key : Str) (time : ℚ) : Option Str :=
  match records.findRev? (submitted key) with
  | none => none
  | some r => if time ≤ r.time + ttl then some r.job.id else none

/-- The request did what the log before it asks for. -/
def Answered (ttl : ℚ) (earlier : List SubmitRecord) (r : SubmitRecord) : Prop :=
  match r.idempotencyKey with
  | none | some [] => r.IsNew
  | some (c :: cs) =>
    match promised ttl earlier (c :: cs) r.time with
    | some jobId => r.IsReplayOf jobId
    | none => r.IsNew

theorem promised_eq_some_iff {ttl : ℚ} {records : List SubmitRecord} {key jobId : Str} {time : ℚ} :
    promised ttl records key time = some jobId ↔
      ∃ r, records.findRev? (submitted key) = some r ∧ time ≤ r.time + ttl ∧ r.job.id = jobId := by
  rw [promised]
  cases records.findRev? (submitted key) with
  | none => simp
  | some r => simp

theorem answered_iff {ttl : ℚ} {earlier : List SubmitRecord} {r : SubmitRecord} {key : Str}
    (hkey : key ≠ []) (hr : r.idempotencyKey = some key) : Answered ttl earlier r ↔
      match promised ttl earlier key r.time with
      | some jobId => r.IsReplayOf jobId
      | none => r.IsNew := by
  obtain ⟨c, cs, rfl⟩ := List.exists_cons_of_ne_nil hkey
  rw [Answered, hr]

theorem promised_concat (ttl : ℚ) (records : List SubmitRecord) (r : SubmitRecord) (key : Str)
    (time : ℚ) : promised ttl (records ++ [r]) key time =
      if r.submitted key = true then if time ≤ r.time + ttl then some r.job.id else none
      else promised ttl records key time := by
  rw [promised, findRev?_concat]
  split_ifs <;> simp_all [promised]

namespace SubmitRecord

variable {r : SubmitRecord} {key : Str}

theorem IsNew.submitted_iff (h : r.IsNew) :
    r.submitted key = true ↔ r.idempotencyKey = some key := by
  rw [submitted, h.outcome]
  simp

theorem IsReplayOf.not_submitted {jobId : Str} (h : r.IsReplayOf jobId) (key : Str) :
    r.submitted key = false := by
  obtain ⟨job, -, hout⟩ := h.stored
  rw [submitted, hout]
  simp

theorem key_of_submitted (h : r.submitted key = true) : r.idempotencyKey = some key := by
  rw [submitted, Bool.and_eq_true, decide_eq_true_eq] at h
  exact h.1

end SubmitRecord

/-! ### One event -/

section Calls

variable {port : JobIdempotencyStorePort σ} {call : Str → QueuedCall} {now : ℚ}
  {job : PipelineJob} {w : SubmitWorld σ}

theorem run_submitNew (w : SubmitWorld σ) {t : JobTable} (ht : w.repository.create job = some t) :
    (do submitWith call {} job; pure (job, false) : SubmitM σ (PipelineJob × Bool)).run w =
      .ok (job, false) { w with repository := t, queue := w.queue ++ [call job.id] } := by
  have hsubmit := run_submitWith call job w
  rw [ht] at hsubmit
  rw [EStateM.run_bind, hsubmit]
  rfl

/-- A request without a key, or with an empty one, submits its own job. -/
theorem run_execute_keyless {idempotencyKey : Option Str}
    (hkey : idempotencyKey = none ∨ idempotencyKey = some []) {t : JobTable}
    (ht : w.repository.create job = some t) :
    (execute (some port) (submitWith call {}) now job idempotencyKey).run w =
      .ok (job, false) { w with repository := t, queue := w.queue ++ [call job.id] } := by
  rw [← run_submitNew w ht]
  rcases hkey with rfl | rfl <;> rfl

/-- A request with a key that nobody holds submits its own job and reserves the key for it. -/
theorem run_execute_free {key : Str} (hkey : key ≠ []) {t : JobTable}
    (ht : w.repository.create job = some t) (hfree : port.holder w.store key now = none) :
    (execute (some port) (submitWith call {}) now job (some key)).run w =
      .ok (job, false)
        { store := lookedUp port now key job.id w.store
          repository := t
          queue := w.queue ++ [call job.id] } := by
  have hnew : (port.holder w.store key now).bind w.repository.get = none := by rw [hfree]; rfl
  rw [execute_of_new hkey hnew]
  exact run_submitNew ⟨lookedUp port now key job.id w.store, w.repository, w.queue⟩ ht

end Calls

/-- What every event keeps: for every key and every later time the store holds what the log
promises, every job that was returned is stored, and every request did what the log before it asked
for. -/
structure LogInv (port : JobIdempotencyStorePort σ) (log : SubmitLog σ) : Prop where
  holder : ∀ key t, key ≠ [] → log.clock ≤ t →
    port.holder log.store key t = promised port.ttl log.records key t
  stored : ∀ r ∈ log.records, ∀ job, r.Returns job → log.repository.get job.id ≠ none
  clock : ∀ r ∈ log.records, r.time ≤ log.clock
  ordered : log.records.Pairwise fun r r' => r.time ≤ r'.time
  answered : ∀ pre r post, log.records = pre ++ r :: post → Answered port.ttl pre r

section Step

variable {port : JobIdempotencyStorePort σ} {call : Str → QueuedCall} {log : SubmitLog σ}
  {elapsed : ℚ≥0}

theorem clock_le_later : log.clock ≤ log.clock + elapsed := le_add_of_nonneg_right elapsed.2

/-- A promised job is stored. -/
theorem LogInv.get_promised (h : LogInv port log) {key : Str} (hkey : key ≠ []) {time : ℚ}
    {jobId : Str} (hjobId : promised port.ttl log.records key time = some jobId) :
    ∃ job, log.repository.get jobId = some job := by
  obtain ⟨r, hlast, -, rfl⟩ := promised_eq_some_iff.mp hjobId
  have hsubmitted := (findRev?_eq_some_iff.mp hlast).1
  have hmem := mem_of_findRev?_eq_some hlast
  obtain ⟨pre, post, hsplit⟩ := List.append_of_mem hmem
  -- the request that reserved the key has returned its own job
  have hanswered := h.answered pre r post hsplit
  rw [answered_iff hkey (key_of_submitted hsubmitted)] at hanswered
  have hnew : r.IsNew := by
    cases hpromised : promised port.ttl pre key r.time with
    | none =>
      rw [hpromised] at hanswered
      exact hanswered
    | some jobId =>
      rw [hpromised] at hanswered
      have hnot := hanswered.not_submitted key
      rw [hsubmitted] at hnot
      cases hnot
  exact Option.ne_none_iff_exists'.mp (h.stored r hmem r.job ⟨false, hnew.outcome⟩)

/-- One more record. -/
theorem LogInv.append (h : LogInv port log) {w : SubmitWorld σ} {r : SubmitRecord}
    (htime : r.time = log.clock + elapsed) (hanswered : Answered port.ttl log.records r)
    (hholder : ∀ key t, key ≠ [] → log.clock + elapsed ≤ t → port.holder w.store key t =
      promised port.ttl (log.records ++ [r]) key t)
    (hkept : ∀ jobId, log.repository.get jobId ≠ none → w.repository.get jobId ≠ none)
    (hreturned : ∀ job, r.Returns job → w.repository.get job.id ≠ none) :
    LogInv port ⟨w, log.clock + elapsed, log.records ++ [r]⟩ := by
  have htimes : ∀ r' ∈ log.records, r'.time ≤ r.time := by
    intro r' hr'
    rw [htime]
    exact (h.clock r' hr').trans clock_le_later
  refine ⟨hholder, ?_, ?_, ?_, ?_⟩
  · intro r' hr' job hreturns
    rcases List.mem_append.mp hr' with hold | hnew
    · exact hkept _ (h.stored r' hold job hreturns)
    · rw [List.mem_singleton.mp hnew] at hreturns
      exact hreturned job hreturns
  · intro r' hr'
    rcases List.mem_append.mp hr' with hold | hnew
    · exact (h.clock r' hold).trans clock_le_later
    · rw [List.mem_singleton.mp hnew, htime]
  · rw [List.pairwise_append]
    refine ⟨h.ordered, List.pairwise_singleton _ _, fun r' hr' r'' hr'' => ?_⟩
    rw [List.mem_singleton.mp hr'']
    exact htimes r' hr'
  · intro pre r' post hsplit
    rcases List.eq_nil_or_concat post with rfl | ⟨post, last, rfl⟩
    · obtain ⟨rfl, hlast⟩ := List.append_inj' hsplit rfl
      rw [← (List.cons.inj hlast).1]
      exact hanswered
    · rw [List.concat_eq_append, ← List.cons_append, ← List.append_assoc] at hsplit
      exact h.answered pre r' post (List.append_inj' hsplit rfl).1

/-- A request that submits its own job. -/
theorem LogInv.append_new (h : LogInv port log) {w : SubmitWorld σ} {r : SubmitRecord}
    (htime : r.time = log.clock + elapsed) (hanswered : Answered port.ttl log.records r)
    (hnew : r.IsNew) (hbefore : r.before = log.repository) (hafter : r.after = w.repository)
    (hholder : ∀ key t, key ≠ [] → log.clock + elapsed ≤ t → port.holder w.store key t =
      if r.idempotencyKey = some key then
        if t ≤ log.clock + elapsed + port.ttl then some r.job.id else none
      else port.holder log.store key t) :
    LogInv port ⟨w, log.clock + elapsed, log.records ++ [r]⟩ := by
  have hcreated := hnew.created
  rw [hbefore, hafter] at hcreated
  refine h.append htime hanswered ?_ ?_ ?_
  · intro key t hkey ht
    rw [hholder key t hkey ht, promised_concat, htime,
      h.holder key t hkey (clock_le_later.trans ht)]
    simp only [hnew.submitted_iff]
  · intro jobId hget
    rw [JobTable.get_create hcreated]
    split_ifs
    · simp
    · exact hget
  · rintro job ⟨isReplay, hout⟩
    have hjob : r.job = job := by
      rw [hnew.outcome] at hout
      exact (Prod.mk.inj (Except.ok.inj hout)).1
    rw [JobTable.get_create hcreated, if_pos (by rw [hjob])]
    simp

/-- A request that is answered with a stored job. -/
theorem LogInv.append_replay (h : LogInv port log) {w : SubmitWorld σ} {r : SubmitRecord}
    {jobId : Str} (htime : r.time = log.clock + elapsed)
    (hanswered : Answered port.ttl log.records r) (hreplay : r.IsReplayOf jobId)
    (hbefore : r.before = log.repository) (hafter : r.after = w.repository)
    (hholder : ∀ key t, log.clock + elapsed ≤ t →
      port.holder w.store key t = port.holder log.store key t) :
    LogInv port ⟨w, log.clock + elapsed, log.records ++ [r]⟩ := by
  have hsame : w.repository = log.repository := by rw [← hafter, hreplay.unchanged, hbefore]
  refine h.append htime hanswered ?_ (fun _ hget => by rw [hsame]; exact hget) ?_
  · intro key t hkey ht
    rw [hholder key t ht, promised_concat, hreplay.not_submitted,
      h.holder key t hkey (clock_le_later.trans ht)]
    rfl
  · rintro job ⟨isReplay, hout⟩
    obtain ⟨job', hget, hout'⟩ := hreplay.stored
    rw [hout'] at hout
    obtain ⟨rfl, -⟩ := Prod.mk.inj (Except.ok.inj hout)
    rw [hsame, ← hbefore, JobTable.id_of_get hget, hget]
    simp

/-- What a submission does that returns. -/
theorem eventStep_submit {idempotencyKey : Option Str} {job : PipelineJob}
    {outcome : PipelineJob × Bool} {w : SubmitWorld σ}
    (hrun : (execute (some port) (submitWith call {}) (log.clock + elapsed) job
      idempotencyKey).run log.toSubmitWorld = .ok outcome w) :
    eventStep port call (.submit idempotencyKey job, elapsed) log =
      ⟨w, log.clock + elapsed, log.records ++ [⟨idempotencyKey, job, log.clock + elapsed,
        log.repository, w.repository, .ok outcome⟩]⟩ := by
  rw [eventStep]
  simp only [hrun]
  rfl

/-- A submission of a fresh job creates it, or finds the job that its key stands for. -/
theorem LogInv.submit_cases (h : LogInv port log) (call : Str → QueuedCall) (elapsed : ℚ≥0)
    (idempotencyKey : Option Str) {job : PipelineJob}
    (hfresh : log.repository.get job.id = none) :
    (∃ store t, log.repository.create job = some t ∧
      eventStep port call (.submit idempotencyKey job, elapsed) log =
        ⟨⟨store, t, log.queue ++ [call job.id]⟩, log.clock + elapsed,
          log.records ++ [⟨idempotencyKey, job, log.clock + elapsed, log.repository, t,
            .ok (job, false)⟩]⟩ ∧
      (∀ key, key ≠ [] → idempotencyKey = some key →
        port.holder log.store key (log.clock + elapsed) = none) ∧
      ∀ key time, key ≠ [] → log.clock + elapsed ≤ time → port.holder store key time =
        if idempotencyKey = some key then
          if time ≤ log.clock + elapsed + port.ttl then some job.id else none
        else port.holder log.store key time) ∨
    ∃ key jobId row, key ≠ [] ∧ idempotencyKey = some key ∧
      port.holder log.store key (log.clock + elapsed) = some jobId ∧
      log.repository.get jobId = some row ∧
      eventStep port call (.submit idempotencyKey job, elapsed) log =
        ⟨{ log.toSubmitWorld with store := (port.get (log.clock + elapsed) key log.store).2 },
          log.clock + elapsed,
          log.records ++ [⟨idempotencyKey, job, log.clock + elapsed, log.repository,
            log.repository, .ok (row, true)⟩]⟩ := by
  obtain ⟨t, ht⟩ := Option.isSome_iff_exists.mp (JobTable.create_isSome_iff.mpr hfresh)
  by_cases hkeyless : idempotencyKey = none ∨ idempotencyKey = some []
  · left
    have hno : ∀ key, key ≠ [] → idempotencyKey ≠ some key := by
      rintro key hkey rfl
      rcases hkeyless with hnone | hempty
      · cases hnone
      · exact hkey (Option.some.inj hempty)
    refine ⟨log.store, t, ht, eventStep_submit (run_execute_keyless hkeyless ht), ?_, ?_⟩
    · intro key hkey heq
      exact absurd heq (hno key hkey)
    · intro key time hkey _
      rw [if_neg (hno key hkey)]
  · obtain ⟨hsome, hne⟩ := not_or.mp hkeyless
    obtain ⟨key, rfl⟩ := Option.ne_none_iff_exists'.mp hsome
    have hkey : key ≠ [] := fun hnil => hne (by rw [hnil])
    cases hholder : port.holder log.store key (log.clock + elapsed) with
    | none =>
      left
      refine ⟨_, t, ht, eventStep_submit (run_execute_free hkey ht hholder), ?_, ?_⟩
      · rintro key' - heq
        rw [← Option.some.inj heq, hholder]
      · intro key' time _ htime
        rw [holder_lookedUp htime]
        simp only [hholder, and_true, Option.some.injEq, eq_comm]
    | some jobId =>
      right
      -- the key stands for a job that was returned, so its row is there
      have hpromised : promised port.ttl log.records key (log.clock + elapsed) = some jobId := by
        rw [← h.holder key _ hkey clock_le_later, hholder]
      obtain ⟨row, hrow⟩ := h.get_promised hkey hpromised
      have hbind : (port.holder log.store key (log.clock + elapsed)).bind log.repository.get =
          some row := by
        rw [hholder]
        exact hrow
      exact ⟨key, jobId, row, hkey, rfl, hholder, hrow,
        eventStep_submit (execute_of_replay hkey hbind)⟩

/-- The step lemma. -/
theorem LogInv.step (h : LogInv port log) (event : SubmitEvent)
    (hfresh : ∀ job, event.submitted = some job → log.repository.get job.id = none) :
    LogInv port (eventStep port call (event, elapsed) log) := by
  cases event with
  | update job =>
    refine ⟨fun key t hkey ht => h.holder key t hkey (clock_le_later.trans ht), ?_,
      fun r hr => (h.clock r hr).trans clock_le_later, h.ordered, h.answered⟩
    intro r hr job' hreturns
    have hget := h.stored r hr job' hreturns
    show (log.repository.update job).get job'.id ≠ none
    rw [JobTable.get_update]
    split_ifs
    · rw [ne_eq, Option.map_eq_none_iff]
      exact hget
    · exact hget
  | submit idempotencyKey job =>
    rcases h.submit_cases call elapsed idempotencyKey (hfresh job rfl) with
      ⟨store, t, ht, heq, hfree, hholder⟩ | ⟨key, jobId, row, hkey, rfl, hholder, hrow, heq⟩
    · rw [heq]
      refine h.append_new rfl ?_ ⟨rfl, ht⟩ rfl rfl hholder
      rcases idempotencyKey with _ | _ | ⟨c, cs⟩
      · exact ⟨rfl, ht⟩
      · exact ⟨rfl, ht⟩
      · have hne := List.cons_ne_nil c cs
        rw [answered_iff hne rfl, ← h.holder _ _ hne clock_le_later, hfree _ hne rfl]
        exact ⟨rfl, ht⟩
    · rw [heq]
      have hreplay : IsReplayOf ⟨some key, job, log.clock + elapsed, log.repository,
          log.repository, .ok (row, true)⟩ jobId := ⟨⟨row, hrow, rfl⟩, rfl⟩
      refine h.append_replay rfl ?_ hreplay rfl rfl fun _ _ ht => port.holder_get ht
      rw [answered_iff hkey rfl, ← h.holder _ _ hkey clock_le_later, hholder]
      exact hreplay

/-- An event creates no row but that of the job it submits. -/
theorem LogInv.get_eventStep (h : LogInv port log) {event : SubmitEvent}
    (hfresh : ∀ job, event.submitted = some job → log.repository.get job.id = none) {jobId : Str}
    (hne : ∀ job, event.submitted = some job → jobId ≠ job.id)
    (hget : log.repository.get jobId = none) :
    (eventStep port call (event, elapsed) log).repository.get jobId = none := by
  cases event with
  | update job =>
    show (log.repository.update job).get jobId = none
    rw [JobTable.get_update, hget]
    split_ifs <;> rfl
  | submit idempotencyKey job =>
    rcases h.submit_cases call elapsed idempotencyKey (hfresh job rfl) with
      ⟨store, t, ht, heq, -, -⟩ | ⟨key, jobId, row, -, rfl, -, -, heq⟩
    · rw [heq]
      show t.get jobId = none
      rw [JobTable.get_create ht, if_neg (hne job rfl), hget]
    · rw [heq]
      exact hget

end Step

/-! ### Histories -/

/-- The jobs that the events of a history submit. -/
def submittedJobs (events : List (SubmitEvent × ℚ≥0)) : List PipelineJob :=
  events.filterMap fun event => event.1.submitted

section Histories

variable {port : JobIdempotencyStorePort σ} {call : Str → QueuedCall}

theorem mem_submittedJobs_cons {event : SubmitEvent × ℚ≥0} {events : List (SubmitEvent × ℚ≥0)}
    {job : PipelineJob} (h : event.1.submitted = some job ∨ job ∈ submittedJobs events) :
    job ∈ submittedJobs (event :: events) := by
  rw [submittedJobs, List.mem_filterMap]
  rcases h with hfirst | hlater
  · exact ⟨event, List.mem_cons_self, hfirst⟩
  · obtain ⟨event', hmem, hjob⟩ := List.mem_filterMap.mp hlater
    exact ⟨event', List.mem_cons_of_mem _ hmem, hjob⟩

/-- The run lemma: histories of jobs with new ids keep the invariant. -/
theorem LogInv.run {log : SubmitLog σ} (h : LogInv port log) (events : List (SubmitEvent × ℚ≥0))
    (hnodup : ((submittedJobs events).map PipelineJob.id).Nodup)
    (hfresh : ∀ job ∈ submittedJobs events, log.repository.get job.id = none) :
    LogInv port (Schedule.run (eventStep port call) log events) := by
  -- the jobs to come stay fresh, so that the step lemma applies to each event
  induction events generalizing log with
  | nil => exact h
  | cons event events ih =>
    obtain ⟨event, elapsed⟩ := event
    have hnow : ∀ job, event.submitted = some job → log.repository.get job.id = none :=
      fun job hjob => hfresh job (mem_submittedJobs_cons (.inl hjob))
    refine ih (h.step event hnow) ?_ fun job hjob => ?_
    · cases hevent : event.submitted with
      | none => simpa [submittedJobs, hevent] using hnodup
      | some first =>
        have hcons : submittedJobs ((event, elapsed) :: events) =
            first :: submittedJobs events := by
          simp [submittedJobs, hevent]
        rw [hcons, List.map_cons] at hnodup
        exact (List.nodup_cons.mp hnodup).2
    · refine h.get_eventStep hnow (fun first hfirst heq => ?_)
        (hfresh job (mem_submittedJobs_cons (.inr hjob)))
      -- the ids of the jobs to come differ from the one just submitted
      have hcons : submittedJobs ((event, elapsed) :: events) = first :: submittedJobs events := by
        simp [submittedJobs, hfirst]
      rw [hcons, List.map_cons] at hnodup
      exact (List.nodup_cons.mp hnodup).1 (List.mem_map.mpr ⟨job, hjob, heq⟩)

/-- The log has one record for each submission. -/
theorem records_run (log : SubmitLog σ) (events : List (SubmitEvent × ℚ≥0)) :
    (Schedule.run (eventStep port call) log events).records.map SubmitRecord.job =
      log.records.map SubmitRecord.job ++ submittedJobs events := by
  induction events generalizing log with
  | nil => simp [submittedJobs]
  | cons event events ih =>
    obtain ⟨event, elapsed⟩ := event
    rw [run_cons, ih]
    cases event <;> simp [eventStep, submittedJobs, SubmitEvent.submitted]

/-- The requests of a log, in order, did what a service should that remembers each key for the
TTL. -/
structure ServesKeys (ttl : ℚ) (log : SubmitLog σ) : Prop where
  /-- A request is answered with a stored job exactly if its key is remembered. -/
  isReplay_iff : ∀ pre r post key, log.records = pre ++ r :: post → key ≠ [] →
    r.idempotencyKey = some key →
    ((∃ job, r.outcome = .ok (job, true)) ↔
      ∃ r' ∈ pre, r'.submitted key = true ∧ r.time ≤ r'.time + ttl)
  /-- The answer is the job of the latest request that submitted one under the key, as it is stored
  now, and nothing is created. -/
  replay : ∀ pre r post job, log.records = pre ++ r :: post → r.outcome = .ok (job, true) →
    r.after = r.before ∧ ∃ key r', key ≠ [] ∧ r.idempotencyKey = some key ∧
      pre.findRev? (submitted key) = some r' ∧ r.before.get r'.job.id = some job
  /-- Any other request returns its own job, the one row that it creates. -/
  creates : ∀ r ∈ log.records, (∀ job, r.outcome ≠ .ok (job, true)) → r.IsNew
  keys_apart : ∀ r ∈ log.records, ∀ r' ∈ log.records, ∀ key key' job job',
    r.idempotencyKey = some key → r'.idempotencyKey = some key' → key ≠ key' →
    r.Returns job → r'.Returns job' → job.id ≠ job'.id
  found : ∀ r ∈ log.records, ∀ job, r.Returns job → log.repository.get job.id ≠ none

/-- What the invariant says of one request: it submitted its own job, or was answered with the job
of the latest request that submitted one under its key, still within the TTL. -/
theorem LogInv.record_cases {log : SubmitLog σ} (h : LogInv port log) {pre post : List SubmitRecord}
    {r : SubmitRecord} (hsplit : log.records = pre ++ r :: post) :
    (r.IsNew ∧ ∀ key, key ≠ [] → r.idempotencyKey = some key →
      promised port.ttl pre key r.time = none) ∨
    ∃ key r', key ≠ [] ∧ r.idempotencyKey = some key ∧
      pre.findRev? (SubmitRecord.submitted key) = some r' ∧ r.time ≤ r'.time + port.ttl ∧
      r.IsReplayOf r'.job.id := by
  have hanswered := h.answered pre r post hsplit
  by_cases hkeyless : r.idempotencyKey = none ∨ r.idempotencyKey = some []
  · left
    have hno : ∀ key, key ≠ [] → r.idempotencyKey ≠ some key := by
      intro key hkey heq
      rcases hkeyless with hnone | hempty
      · rw [hnone] at heq
        cases heq
      · rw [hempty] at heq
        exact hkey (Option.some.inj heq).symm
    refine ⟨?_, fun key hkey heq => absurd heq (hno key hkey)⟩
    rcases hkeyless with hnone | hempty
    · rw [Answered, hnone] at hanswered
      exact hanswered
    · rw [Answered, hempty] at hanswered
      exact hanswered
  · obtain ⟨hsome, hne⟩ := not_or.mp hkeyless
    obtain ⟨key, hr⟩ := Option.ne_none_iff_exists'.mp hsome
    have hkey : key ≠ [] := fun hnil => hne (by rw [hr, hnil])
    rw [answered_iff hkey hr] at hanswered
    cases hpromised : promised port.ttl pre key r.time with
    | none =>
      left
      rw [hpromised] at hanswered
      refine ⟨hanswered, fun key' _ heq => ?_⟩
      rw [← Option.some.inj (hr.symm.trans heq), hpromised]
    | some jobId =>
      right
      rw [hpromised] at hanswered
      obtain ⟨r', hlast, htime, rfl⟩ := promised_eq_some_iff.mp hpromised
      exact ⟨key, r', hkey, hr, hlast, htime, hanswered⟩

/-- A request that returns a job has a request under its key that submitted it. -/
theorem LogInv.exists_submitted {log : SubmitLog σ} (h : LogInv port log) {r : SubmitRecord}
    (hr : r ∈ log.records) {key : Str} {job : PipelineJob} (hkey : r.idempotencyKey = some key)
    (hreturns : r.Returns job) :
    ∃ r' ∈ log.records, r'.idempotencyKey = some key ∧ r'.job.id = job.id := by
  obtain ⟨pre, post, hsplit⟩ := List.append_of_mem hr
  obtain ⟨isReplay, hout⟩ := hreturns
  rcases h.record_cases hsplit with ⟨hnew, -⟩ | ⟨key', r', -, hkey', hlast, -, hreplay⟩
  · rw [hnew.outcome] at hout
    obtain ⟨rfl, -⟩ := Prod.mk.inj (Except.ok.inj hout)
    exact ⟨r, hr, hkey, rfl⟩
  · obtain ⟨job', hget, hout'⟩ := hreplay.stored
    rw [hout'] at hout
    obtain ⟨rfl, -⟩ := Prod.mk.inj (Except.ok.inj hout)
    obtain rfl := Option.some.inj (hkey'.symm.trans hkey)
    have hsubmitted := (findRev?_eq_some_iff.mp hlast).1
    refine ⟨r', ?_, key_of_submitted hsubmitted, (JobTable.id_of_get hget).symm⟩
    rw [hsplit]
    exact List.mem_append_left _ (mem_of_findRev?_eq_some hlast)

theorem LogInv.servesKeys {log : SubmitLog σ} (h : LogInv port log)
    (hnodup : ((log.records.map SubmitRecord.job).map PipelineJob.id).Nodup) :
    ServesKeys port.ttl log := by
  refine ⟨?_, ?_, ?_, ?_, h.stored⟩
  · intro pre r post key hsplit hkey hr
    have hordered := h.ordered
    rw [hsplit, List.pairwise_append] at hordered
    rcases h.record_cases hsplit with ⟨hnew, hnone⟩ | ⟨key', r', -, hr', hlast, htime, hreplay⟩
    · constructor
      · rintro ⟨job, hout⟩
        rw [hnew.outcome] at hout
        cases hout
      · rintro ⟨r', hr', hsubmitted, htime⟩
        -- the latest such request is not earlier than this one
        obtain ⟨last, hlast⟩ := exists_findRev?_eq_some hr' hsubmitted
        have hle : r'.time ≤ last.time := by
          rcases rel_of_findRev?_eq_some hordered.1 hlast hr' hsubmitted with rfl | hle
          · exact le_rfl
          · exact hle
        have hsome := promised_eq_some_iff.mpr
          ⟨last, hlast, htime.trans (by rw [add_le_add_iff_right]; exact hle), rfl⟩
        rw [hnone key hkey hr] at hsome
        cases hsome
    · obtain rfl := Option.some.inj (hr'.symm.trans hr)
      refine iff_of_true ?_ ⟨r', mem_of_findRev?_eq_some hlast,
        (findRev?_eq_some_iff.mp hlast).1, htime⟩
      obtain ⟨job, -, hout⟩ := hreplay.stored
      exact ⟨job, hout⟩
  · intro pre r post job hsplit hout
    rcases h.record_cases hsplit with ⟨hnew, -⟩ | ⟨key, r', hkey, hr, hlast, -, hreplay⟩
    · rw [hnew.outcome] at hout
      cases hout
    · obtain ⟨job', hget, hout'⟩ := hreplay.stored
      rw [hout'] at hout
      obtain ⟨rfl, -⟩ := Prod.mk.inj (Except.ok.inj hout)
      exact ⟨hreplay.unchanged, key, r', hkey, hr, hlast, hget⟩
  · intro r hr hnot
    obtain ⟨pre, post, hsplit⟩ := List.append_of_mem hr
    rcases h.record_cases hsplit with ⟨hnew, -⟩ | ⟨-, r', -, -, -, -, hreplay⟩
    · exact hnew
    · obtain ⟨job, -, hout⟩ := hreplay.stored
      exact absurd hout (hnot job)
  · intro r hr r' hr' key key' job job' hkey hkey' hne hjob hjob' heq
    obtain ⟨r₀, hr₀, hkey₀, hid₀⟩ := h.exists_submitted hr hkey hjob
    obtain ⟨r₁, hr₁, hkey₁, hid₁⟩ := h.exists_submitted hr' hkey' hjob'
    -- one job, one request that submitted it, one key
    rw [List.map_map] at hnodup
    have hsame : r₀ = r₁ := List.inj_on_of_nodup_map hnodup hr₀ hr₁ (by
      rw [Function.comp_apply, Function.comp_apply, hid₀, hid₁, heq])
    rw [hsame, hkey₁] at hkey₀
    exact hne (Option.some.inj hkey₀).symm

end Histories

/-- **The in-process store serves every key**: the requests of any history of fresh jobs, with any
keys and gaps of time, over any TTL. -/
theorem serves_keys (ttlSeconds : ℤ) (call : Str → QueuedCall) (repository : JobTable)
    (queue : List QueuedCall) (clock : ℚ) (events : List (SubmitEvent × ℚ≥0))
    (hnodup : ((submittedJobs events).map PipelineJob.id).Nodup)
    (hfresh : ∀ job ∈ submittedJobs events, repository.get job.id = none) :
    ServesKeys ttlSeconds (run (eventStep (memoryJobIdempotencyStore ttlSeconds) call)
      ⟨⟨fun _ => none, repository, queue⟩, clock, []⟩ events) := by
  have hstart : LogInv (memoryJobIdempotencyStore ttlSeconds)
      ⟨⟨fun _ => none, repository, queue⟩, clock, []⟩ := by
    refine ⟨fun _ _ _ _ => rfl, ?_, ?_, List.Pairwise.nil, ?_⟩
    · intro r hr
      cases hr
    · intro r hr
      cases hr
    · intro pre r post hsplit
      exact absurd hsplit.symm (List.append_ne_nil_of_right_ne_nil _ (List.cons_ne_nil _ _))
  refine (hstart.run events hnodup hfresh).servesKeys ?_
  rw [records_run, List.map_nil, List.nil_append]
  exact hnodup

/-- A key that is replayed and, when the TTL is over, stands for another job. -/
theorem serves_keys_rebound :
    ServesKeys 30 (run (eventStep (memoryJobIdempotencyStore 30) .execute)
      ⟨⟨fun _ => none, JobTable.empty, []⟩, 0, []⟩
      [(.submit (some ['k']) (jobOf 0), 0), (.update (jobOf 0), 1),
        (.submit (some ['k']) (jobOf 1), 29), (.submit (some ['k']) (jobOf 2), 1)]) :=
  serves_keys 30 .execute JobTable.empty [] 0 _ (by decide) fun _ _ => rfl

end MarketplacePipeline.SubmitPipelineJobUseCase
