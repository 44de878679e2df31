import MarketplacePipeline.Algorithm.OnceOnly
import MarketplacePipeline.Crm.Equiv.CreateTask

/-!
# Every task is created once

With a reliable store and POSTs that create a task exactly when they return its id, the calls of
the gateway are steps of `OnceOnly`, where a key is bound to the task whose id is stored for it
(`callRecord_refines`).  `exactly_once` collects what follows for a sequence of calls and for a
pipeline that is run again.
-/

namespace MarketplacePipeline

/-- A POST attempt creates one task and returns its id, or creates none and does not return an
id. -/
def AmoCrm.ReliablePost (crm : AmoCrm) : Prop :=
  ∀ attempt, match (crm.postTask attempt).created with
    | some id => ∃ data, HttpClient.checkAnswer (crm.postTask attempt).answer =
        .ok (.ok ⟨data, [id]⟩)
    | none => ∀ body, HttpClient.checkAnswer (crm.postTask attempt).answer = .ok (.ok body) →
        body.tasks = []

/-- What a call came to, as a request to provide a task for its key. -/
def CallRecord.toOutcome {σ : Type} (r : CallRecord σ) : OnceOnly.Outcome Str :=
  match r.outcome with
  | .error _ => .failed
  | .ok outcome => if outcome.reused then .reused outcome.taskId else .created outcome.taskId

namespace AmoCrmGateway

open HttpClient OnceOnly

variable {σ : Type} (gateway : AmoCrmGateway σ) {crm : AmoCrm}

/-! ### Reliable POSTs -/

/-- A reliable POST creates the one task it returns, or none. -/
theorem attemptsFrom_of_reliable (hreliable : crm.ReliablePost) (more attempt : ℕ) :
    ((attemptsFrom crm more attempt).filterMap PostAttempt.created = [] ∧
        ∀ body, answerFrom crm more attempt = .ok (.ok body) → body.tasks = []) ∨
      ∃ id data, (attemptsFrom crm more attempt).filterMap PostAttempt.created = [id] ∧
        answerFrom crm more attempt = .ok (.ok ⟨data, [id]⟩) := by
  induction more generalizing attempt with
  | zero =>
    have h := hreliable attempt
    cases hcreated : (crm.postTask attempt).created with
    | none =>
      rw [hcreated] at h
      exact Or.inl ⟨by simp [attemptsFrom, hcreated], h⟩
    | some id =>
      rw [hcreated] at h
      obtain ⟨data, hdata⟩ := h
      exact Or.inr ⟨id, data, by simp [attemptsFrom, hcreated], by rw [answerFrom, hdata]⟩
  | succ more ih =>
    have h := hreliable attempt
    cases hcreated : (crm.postTask attempt).created with
    | some id =>
      rw [hcreated] at h
      obtain ⟨data, hanswer⟩ := h
      exact Or.inr ⟨id, data, by simp [attemptsFrom, hcreated, hanswer],
        by simp [answerFrom, hanswer]⟩
    | none =>
      rw [hcreated] at h
      cases hanswer : checkAnswer (crm.postTask attempt).answer with
      | ok body =>
        refine Or.inl ⟨by simp [attemptsFrom, hcreated, hanswer], fun body' hbody' => h body' ?_⟩
        simpa [answerFrom, hanswer] using hbody'
      | error exc =>
        by_cases hexc : isRetryable exc = true
        · -- an attempt that created nothing is retried: the next one is the first again
          simpa [attemptsFrom, answerFrom, hcreated, hanswer, hexc] using ih (attempt + 1)
        · exact Or.inl ⟨by simp [attemptsFrom, hcreated, hanswer, hexc],
            by simp [answerFrom, hanswer, hexc]⟩

/-- With a reliable POST, a call creates the one task whose id it returns, or none. -/
theorem remoteOutcome_of_reliable (hreliable : crm.ReliablePost) (task : CrmTaskRequest) :
    (gateway.createdTasks crm task = [] ∧ ∃ exc, gateway.remoteOutcome crm task = .error exc) ∨
      ∃ t outcome, gateway.createdTasks crm task = [t] ∧
        gateway.remoteOutcome crm task = .ok outcome ∧ outcome.reused = false ∧
        t.id = outcome.taskId := by
  rw [createdTasks, createdBy_eq_map, attempts, remoteOutcome, postAnswer]
  rcases attemptsFrom_of_reliable hreliable (gateway.settings.httpMaxRetries - 1).toNat 0 with
    ⟨hnone, hbody⟩ | ⟨id, data, hone, hanswer⟩
  · refine Or.inl ⟨by rw [hnone]; rfl, ?_⟩
    cases hanswer : answerFrom crm (gateway.settings.httpMaxRetries - 1).toNat 0 with
    | error exc => exact ⟨exc, rfl⟩
    | ok body =>
      cases body with
      | error exc => exact ⟨exc, rfl⟩
      | ok body =>
        simp only [hbody body hanswer]
        exact ⟨_, rfl⟩
  · rw [hone, hanswer]
    exact Or.inr ⟨_, _, rfl, rfl, rfl, rfl⟩

/-! ### A call as a step of the abstract component -/

/-- The id of the task that a key stands for. -/
def bound (store : σ) (key : Str) : Option Str :=
  (gateway.store.get key store).map IdempotencyRecord.taskId

theorem bound_stored (key : Str) (record : IdempotencyRecord) (store : σ) :
    gateway.bound (gateway.stored key record store) =
      Function.update (gateway.bound store) key (some record.taskId) := by
  funext k
  by_cases hk : k = key
  · subst hk
    rw [Function.update_self, bound, get_stored, if_pos rfl, Option.map_some]
  · rw [Function.update_of_ne hk, bound, get_stored, if_neg hk, bound]

/-- What a call that refines a step has to do with requests and with the store. -/
structure CallOk (r : CallRecord σ) : Prop where
  created_le : r.created.length ≤ if r.toOutcome.isCreated then 1 else 0
  created_eq : ∀ outcome, r.outcome = .ok outcome → outcome.reused = false →
    outcome.mocked = false → r.created.map RemoteTask.id = [outcome.taskId]
  reused_gets : ∀ id, r.toOutcome = .reused id → ∀ q ∈ r.requests, q.isGet = true
  failed_store : r.toOutcome = .failed → r.after.store = r.before.store

/-- What has to be checked of the requests that a call added. -/
theorem CallOk.of_requests {r : CallRecord σ} {new : List CrmRequest}
    (hnew : r.after.requests = r.before.requests ++ new)
    (hcreated : (new.filterMap CrmRequest.created).length ≤
      if r.toOutcome.isCreated then 1 else 0)
    (hposted : ∀ outcome, r.outcome = .ok outcome → outcome.reused = false →
      outcome.mocked = false →
      (new.filterMap CrmRequest.created).map RemoteTask.id = [outcome.taskId])
    (hreused : ∀ id, r.toOutcome = .reused id → ∀ q ∈ new, q.isGet = true)
    (hfailed : r.toOutcome = .failed → r.after.store = r.before.store) : CallOk r := by
  have hrequests : r.requests = new := by rw [CallRecord.requests, hnew, List.drop_left]
  exact ⟨by rw [CallRecord.created, hrequests]; exact hcreated,
    by rw [CallRecord.created, hrequests]; exact hposted, by rw [hrequests]; exact hreused, hfailed⟩

/-- A call is a step for its key, and does nothing else. -/
def Refines (r : CallRecord σ) : Prop :=
  OnceOnly.Step (gateway.bound r.before.store) (gateway.keyOf r.task) r.toOutcome
    (gateway.bound r.after.store) ∧ CallOk r

section Post

variable {gateway} {task : CrmTaskRequest} {w : CrmWorld σ} {gets : List CrmRequest}
  (hfree : gateway.bound w.store (gateway.keyOf task) = none)
  (isGet : ∀ r ∈ gets, CrmRequest.isGet r = true) (hreliable : crm.ReliablePost)

include hfree isGet hreliable

/-- A reliable POST that raises has created nothing. -/
theorem refines_postFailed {exc : PyError} (raised : gateway.remoteOutcome crm task = .error exc) :
    gateway.Refines ⟨task, w,
      { w with
        tasks := (gateway.createdTasks crm task).reverse ++ w.tasks
        requests := w.requests ++ gets ++ gateway.postRequests crm task }, .error exc⟩ := by
  rcases gateway.remoteOutcome_of_reliable hreliable task with ⟨hnone, -⟩ | ⟨_, _, -, hok, -⟩
  · refine ⟨.failed hfree, .of_requests (List.append_assoc _ _ _) ?_ (fun _ h => by cases h)
      (fun _ h => by cases h) (fun _ => rfl)⟩
    rw [List.filterMap_append, filterMap_created_of_isGet isGet, filterMap_created_postRequests,
      hnone]
    exact Nat.zero_le _
  · rw [raised] at hok
    cases hok

/-- A reliable POST that returns has created the task whose id is stored. -/
theorem refines_posted {outcome : CrmTaskOutcome}
    (returned : gateway.remoteOutcome crm task = .ok outcome) :
    gateway.Refines ⟨task, w,
      { w with
        store := gateway.stored (gateway.keyOf task)
          (gateway.createdRecord crm task outcome) w.store
        tasks := (gateway.createdTasks crm task).reverse ++ w.tasks
        requests := w.requests ++ gets ++ gateway.postRequests crm task }, .ok outcome⟩ := by
  rcases gateway.remoteOutcome_of_reliable hreliable task with
    ⟨-, _, herror⟩ | ⟨t, outcome', hone, hok, hreused, hid⟩
  · rw [returned] at herror
    cases herror
  obtain rfl := Except.ok.inj (returned.symm.trans hok)
  have houtcome : ∀ w', (CallRecord.mk task w w' (.ok outcome)).toOutcome =
      .created outcome.taskId := fun w' => by simp [CallRecord.toOutcome, hreused]
  constructor
  · simp only [houtcome, bound_stored]
    exact .created hfree _
  · apply CallOk.of_requests (List.append_assoc _ _ _)
    · rw [houtcome, List.filterMap_append, filterMap_created_of_isGet isGet,
        filterMap_created_postRequests, hone]
      exact Nat.le_refl 1
    · intro outcome' hout _ _
      obtain rfl := Except.ok.inj hout
      rw [List.filterMap_append, filterMap_created_of_isGet isGet,
        filterMap_created_postRequests, hone, List.nil_append, List.map_singleton, hid]
    · simp [houtcome]
    · simp [houtcome]

end Post

theorem callRecord_refines (henabled : gateway.settings.crmIdempotencyEnabled = true)
    (hreliable : crm.ReliablePost) (task : CrmTaskRequest) (w : CrmWorld σ) :
    gateway.Refines (gateway.callRecord crm task w) := by
  have hlookup : gateway.bound w.store (gateway.keyOf task) =
      (gateway.lookup (gateway.keyOf task) w.store).map IdempotencyRecord.taskId := by
    rw [bound, lookup, if_pos henabled]
  have hends := gateway.createTask_ends crm task w
  rw [callRecord]
  generalize (gateway.createTask crm task).run w = result at hends ⊢
  cases hends with
  | replayed cached hit =>
    rw [hit] at hlookup
    exact ⟨.replayed hlookup, .of_requests (List.append_nil _).symm (Nat.zero_le _)
      (fun _ hout hnew => by cases hout; cases hnew) (fun _ _ _ h => by cases h)
      (fun h => by cases h)⟩
  | searchFailed miss gets isGet exc =>
    rw [miss] at hlookup
    exact ⟨.failed hlookup, .of_requests rfl (by simp [filterMap_created_of_isGet isGet])
      (fun _ h => by cases h) (fun _ h => by cases h) (fun _ => rfl)⟩
  | adopted miss enabled live gets isGet taskId =>
    rw [miss] at hlookup
    refine ⟨?_, .of_requests rfl (by simp [filterMap_created_of_isGet isGet])
      (fun _ hout hnew => by cases hout; cases hnew) (fun _ _ => isGet) (fun h => by cases h)⟩
    simp only [bound_stored]
    exact .adopted hlookup taskId
  | mocked miss mock =>
    rw [miss] at hlookup
    refine ⟨?_, .of_requests (List.append_nil _).symm (Nat.zero_le _)
      (fun _ hout _ hlive => by cases hout; cases hlive) (fun _ _ _ h => by cases h)
      (fun h => by cases h)⟩
    simp only [bound_stored]
    exact .created hlookup _
  | unconfigured miss live missing gets isGet =>
    rw [miss] at hlookup
    exact ⟨.failed hlookup, .of_requests rfl (by simp [filterMap_created_of_isGet isGet])
      (fun _ h => by cases h) (fun _ h => by cases h) (fun _ => rfl)⟩
  | postFailed miss live configured gets isGet exc raised =>
    rw [miss] at hlookup
    exact refines_postFailed hlookup isGet hreliable raised
  | posted miss live configured gets isGet outcome returned =>
    rw [miss] at hlookup
    exact refines_posted hlookup isGet hreliable returned

/-! ### Sequences of calls -/

theorem worldAfterCalls_cons (r : CallRecord σ) (records : List (CallRecord σ))
    (w : CrmWorld σ) : worldAfterCalls (r :: records) w = worldAfterCalls records r.after := by
  rw [worldAfterCalls, worldAfterCalls, List.getLast?_cons]
  cases records.getLast? <;> rfl

/-- What a list of calls came to, key by key. -/
def outcomesOf (records : List (CallRecord σ)) : List (Str × OnceOnly.Outcome Str) :=
  records.map fun r => (gateway.keyOf r.task, r.toOutcome)

/-- A sequence of calls is a run of the abstract component. -/
theorem callRecords_refines (henabled : gateway.settings.crmIdempotencyEnabled = true)
    (calls : List (AmoCrm × CrmTaskRequest)) (hreliable : ∀ c ∈ calls, c.1.ReliablePost)
    (w : CrmWorld σ) :
    OnceOnly.Trace (gateway.bound w.store) (gateway.outcomesOf (gateway.callRecords calls w))
        (gateway.bound (worldAfterCalls (gateway.callRecords calls w) w).store) ∧
      ∀ r ∈ gateway.callRecords calls w, gateway.Refines r := by
  induction calls generalizing w with
  | nil => exact ⟨.nil _, by simp [callRecords]⟩
  | cons call calls ih =>
    obtain ⟨crm, task⟩ := call
    have hfirst := gateway.callRecord_refines henabled (hreliable (crm, task) (by simp)) task w
    have hstep := hfirst.1
    obtain ⟨htrace, hall⟩ := ih (fun c hc => hreliable c (by simp [hc]))
      (gateway.callRecord crm task w).after
    rw [callRecord_task, callRecord_before] at hstep
    constructor
    · rw [callRecords, worldAfterCalls_cons, outcomesOf, List.map_cons, callRecord_task]
      exact .cons hstep htrace
    · intro r hr
      rcases List.mem_cons.mp hr with rfl | hr
      · exact hfirst
      · exact hall r hr

/-- A run of the pipeline makes the first calls of its sequence. -/
theorem pipelineRecords_eq (calls : List (AmoCrm × CrmTaskRequest)) (w : CrmWorld σ) :
    ∃ n, gateway.pipelineRecords calls w = gateway.callRecords (calls.take n) w := by
  induction calls generalizing w with
  | nil => exact ⟨0, rfl⟩
  | cons call calls ih =>
    obtain ⟨crm, task⟩ := call
    rw [pipelineRecords]
    cases hout : (gateway.callRecord crm task w).outcome with
    | error exc => exact ⟨1, by simp [callRecords]⟩
    | ok outcome =>
      obtain ⟨n, hn⟩ := ih (gateway.callRecord crm task w).after
      exact ⟨n + 1, by simp [callRecords, hn]⟩

/-- The records of a pipeline run are those of `createTasks`. -/
theorem worldAfter_createTasks (calls : List (AmoCrm × CrmTaskRequest)) (w : CrmWorld σ) :
    worldAfter ((gateway.createTasks calls).run w) =
      worldAfterCalls (gateway.pipelineRecords calls w) w := by
  induction calls generalizing w with
  | nil => rfl
  | cons call calls ih =>
    obtain ⟨crm, task⟩ := call
    rw [createTasks, EStateM.run_bind, pipelineRecords, callRecord]
    cases (gateway.createTask crm task).run w with
    | error exc w' => rfl
    | ok outcome w' =>
      simp only [worldAfterCalls_cons, EStateM.run_bind]
      rw [← ih w']
      cases (gateway.createTasks calls).run w' <;> rfl

theorem pipelineRecords_refines (henabled : gateway.settings.crmIdempotencyEnabled = true)
    (calls : List (AmoCrm × CrmTaskRequest)) (hreliable : ∀ c ∈ calls, c.1.ReliablePost)
    (w : CrmWorld σ) :
    OnceOnly.Trace (gateway.bound w.store) (gateway.outcomesOf (gateway.pipelineRecords calls w))
        (gateway.bound (worldAfterCalls (gateway.pipelineRecords calls w) w).store) ∧
      ∀ r ∈ gateway.pipelineRecords calls w, gateway.Refines r := by
  obtain ⟨n, hn⟩ := gateway.pipelineRecords_eq calls w
  rw [hn]
  exact gateway.callRecords_refines henabled (calls.take n)
    (fun c hc => hreliable c (List.take_subset n calls hc)) w

/-! ### What follows -/

/-- The tasks that calls with this key created. -/
def createdFor (key : Str) (records : List (CallRecord σ)) : List RemoteTask :=
  (records.filter fun r => gateway.keyOf r.task = key).flatMap CallRecord.created

theorem length_createdFor_le_countP (key : Str) {records : List (CallRecord σ)}
    (hok : ∀ r ∈ records, CallOk r) :
    (gateway.createdFor key records).length ≤
      (gateway.outcomesOf records).countP fun e => e.1 = key ∧ e.2.isCreated = true := by
  induction records with
  | nil => simp [createdFor]
  | cons r records ih =>
    have hrest := ih fun r' hr' => hok r' (by simp [hr'])
    have hhead := (hok r (by simp)).created_le
    rw [outcomesOf, List.map_cons, List.countP_cons, createdFor, List.filter_cons]
    by_cases hkey : gateway.keyOf r.task = key
    · simp only [hkey, decide_true, if_true, List.flatMap_cons, List.length_append, true_and]
      rw [createdFor, outcomesOf] at hrest
      simp only [decide_eq_true_eq]
      omega
    · simp only [hkey, decide_false, Bool.false_eq_true, if_false, false_and]
      exact hrest

theorem length_createdFor_le {records : List (CallRecord σ)} {store : σ}
    {bound' : Str → Option Str}
    (htrace : OnceOnly.Trace (gateway.bound store) (gateway.outcomesOf records) bound')
    (hrefines : ∀ r ∈ records, gateway.Refines r) (key : Str) :
    (gateway.createdFor key records).length ≤
      if gateway.store.get key store = none then 1 else 0 := by
  refine (gateway.length_createdFor_le_countP key fun r hr => (hrefines r hr).2).trans ?_
  have hle := htrace.countP_created_le key
  simpa [bound] using hle

theorem toOutcome_ne_failed {r : CallRecord σ} {outcome : CrmTaskOutcome}
    (h : r.outcome = .ok outcome) : r.toOutcome ≠ .failed := by
  rw [CallRecord.toOutcome, h]
  intro hfailed
  dsimp only at hfailed
  split_ifs at hfailed

theorem taskId_of_toOutcome {r : CallRecord σ} {outcome : CrmTaskOutcome} {id : Str}
    (hout : r.outcome = .ok outcome) (hid : r.toOutcome = .created id ∨ r.toOutcome = .reused id) :
    outcome.taskId = id := by
  rw [CallRecord.toOutcome, hout] at hid
  dsimp only at hid
  split_ifs at hid <;> simpa using hid

/-- A call that returns leaves its task stored. -/
theorem Refines.bound_after {gateway : AmoCrmGateway σ} {r : CallRecord σ}
    {outcome : CrmTaskOutcome} (h : gateway.Refines r) (hout : r.outcome = .ok outcome) :
    gateway.bound r.after.store (gateway.keyOf r.task) = some outcome.taskId := by
  obtain ⟨id, hid, hbound⟩ := h.1.bound_after (toOutcome_ne_failed hout)
  rw [taskId_of_toOutcome hout hid]
  exact hbound

theorem outcome_of_toOutcome_reused {r : CallRecord σ} {id : Str}
    (h : r.toOutcome = .reused id) :
    ∃ outcome, r.outcome = .ok outcome ∧ outcome.taskId = id ∧ outcome.reused = true := by
  rw [CallRecord.toOutcome] at h
  cases hout : r.outcome with
  | error exc =>
    rw [hout] at h
    cases h
  | ok outcome =>
    rw [hout] at h
    dsimp only at h
    split_ifs at h with hflag
    exact ⟨outcome, rfl, by simpa using h, hflag⟩

/-- After a call that returned, the calls with its key return its task and do not POST. -/
theorem replayed_after {pre post : List (CallRecord σ)} {r r' : CallRecord σ}
    {outcome : CrmTaskOutcome} {bound₀ bound₁ : Str → Option Str}
    (htrace : OnceOnly.Trace bound₀ (gateway.outcomesOf (pre ++ r :: post)) bound₁)
    (hout : r.outcome = .ok outcome) (hr' : r' ∈ post) (hok : CallOk r')
    (hkey : gateway.keyOf r'.task = gateway.keyOf r.task) :
    (∃ outcome', r'.outcome = .ok outcome' ∧ outcome'.taskId = outcome.taskId ∧
      outcome'.reused = true) ∧ ∀ q ∈ r'.requests, q.isGet = true := by
  rw [outcomesOf, List.map_append, List.map_cons] at htrace
  obtain ⟨id, hid, hreuse⟩ := htrace.replayed (toOutcome_ne_failed hout)
  have hreused : r'.toOutcome = .reused id := hreuse _ (by
    rw [← hkey]
    exact List.mem_map_of_mem hr')
  have htaskId := taskId_of_toOutcome hout hid
  obtain ⟨outcome', hout', hid', hflag⟩ := outcome_of_toOutcome_reused hreused
  exact ⟨⟨outcome', hout', by rw [hid', htaskId], hflag⟩, hok.reused_gets id hreused⟩

/-- What the gateway guarantees for a sequence of calls, and for pipelines that run again. -/
structure ExactlyOnce (calls : List (AmoCrm × CrmTaskRequest)) (w : CrmWorld σ) : Prop where
  /-- At most one POST of the whole run creates a task for a key, none if the key was stored. -/
  posted_once : ∀ key, (gateway.createdFor key (gateway.callRecords calls w)).length ≤
    if gateway.store.get key w.store = none then 1 else 0
  /-- After a call that returns, the calls with its key return its task and do not POST. -/
  replayed : ∀ pre r post outcome, gateway.callRecords calls w = pre ++ r :: post →
    r.outcome = .ok outcome → ∀ r' ∈ post, gateway.keyOf r'.task = gateway.keyOf r.task →
      (∃ outcome', r'.outcome = .ok outcome' ∧ outcome'.taskId = outcome.taskId ∧
        outcome'.reused = true) ∧ ∀ q ∈ r'.requests, q.isGet = true
  /-- A call that returns leaves the id of its task stored for its key. -/
  stored : ∀ r ∈ gateway.callRecords calls w, ∀ outcome, r.outcome = .ok outcome →
    (gateway.store.get (gateway.keyOf r.task) r.after.store).map IdempotencyRecord.taskId =
      some outcome.taskId
  /-- A call that returns a new task of the account has created it, and no other one. -/
  created : ∀ r ∈ gateway.callRecords calls w, ∀ outcome, r.outcome = .ok outcome →
    outcome.reused = false → outcome.mocked = false →
    r.created.map RemoteTask.id = [outcome.taskId]
  /-- A call that raises leaves the store as it was. -/
  raised : ∀ r ∈ gateway.callRecords calls w, ∀ exc, r.outcome = .error exc →
    r.after.store = r.before.store
  /-- After a pipeline run over the tasks, whatever it came to, the tasks of the calls that
  returned are stored, and another run creates tasks only for keys that are not. -/
  rerun : ∀ again : List (AmoCrm × CrmTaskRequest), (∀ c ∈ again, c.1.ReliablePost) →
    let w' := worldAfter ((gateway.createTasks calls).run w)
    (∀ r ∈ gateway.pipelineRecords calls w, ∀ outcome, r.outcome = .ok outcome →
        gateway.store.get (gateway.keyOf r.task) w'.store ≠ none) ∧
      ∀ key, (gateway.createdFor key (gateway.pipelineRecords again w')).length ≤
        if gateway.store.get key w'.store = none then 1 else 0

/-- **Every task is created once**: with a reliable store and reliable POSTs, for any sequence of
calls and any answers to the searches. -/
theorem exactly_once (henabled : gateway.settings.crmIdempotencyEnabled = true)
    (calls : List (AmoCrm × CrmTaskRequest)) (hreliable : ∀ c ∈ calls, c.1.ReliablePost)
    (w : CrmWorld σ) : gateway.ExactlyOnce calls w := by
  obtain ⟨htrace, hrefines⟩ := gateway.callRecords_refines henabled calls hreliable w
  refine ⟨gateway.length_createdFor_le htrace hrefines, ?_,
    fun r hr outcome hout => (hrefines r hr).bound_after hout,
    fun r hr => (hrefines r hr).2.created_eq, ?_, ?_⟩
  · intro pre r post outcome hrecords hout r' hr' hkey
    have hmem : r' ∈ gateway.callRecords calls w := by
      rw [hrecords]
      simp [hr']
    have hr'ok := (hrefines r' hmem).2
    rw [hrecords] at htrace
    exact gateway.replayed_after htrace hout hr' hr'ok hkey
  · intro r hr exc hout
    exact (hrefines r hr).2.failed_store (by rw [CallRecord.toOutcome, hout])
  · intro again hagain
    dsimp only
    rw [worldAfter_createTasks]
    obtain ⟨hfirst, -⟩ := gateway.pipelineRecords_refines henabled calls hreliable w
    refine ⟨fun r hr outcome hout => ?_, ?_⟩
    · have hbound := hfirst.bound_after (List.mem_map_of_mem hr) (toOutcome_ne_failed hout)
      simpa [bound] using hbound
    · obtain ⟨hsecond, hrefines'⟩ := gateway.pipelineRecords_refines henabled again hagain
        (worldAfterCalls (gateway.pipelineRecords calls w) w)
      exact gateway.length_createdFor_le hsecond hrefines'

/-- A task that is asked for twice. -/
theorem exactly_once_twice :
    liveGateway.ExactlyOnce
      [(pagedAccount fun _ => returned "7".toList, plainTask),
        (pagedAccount fun _ => returned "8".toList, plainTask)] (accountOf []) :=
  liveGateway.exactly_once rfl _ (by
    simp only [List.mem_cons, List.not_mem_nil, or_false, forall_eq_or_imp, forall_eq]
    exact ⟨fun _ => ⟨[], rfl⟩, fun _ => ⟨[], rfl⟩⟩) (accountOf [])

end AmoCrmGateway

end MarketplacePipeline
