import MarketplacePipeline.Crm.CallHistory
import MarketplacePipeline.Crm.Equiv.AmoCrmGateway

/-!
# One call of `create_task`

`createTask_ends` lists the ways a call can end, for any behaviour of the account, with the world
each of them leaves.  Everything that is said about calls is derived from it, or from
`run_findExisting_serves` where the account serves its pages.
-/

namespace MarketplacePipeline.AmoCrmGateway

open IdempotencyPolicy HttpClient

variable {σ : Type} (gateway : AmoCrmGateway σ) (crm : AmoCrm)

/-- The store after `put` and, if idempotency is enabled, `save`. -/
def stored (key : Str) (record : IdempotencyRecord) (store : σ) : σ :=
  let store := gateway.store.put key record store
  if gateway.settings.crmIdempotencyEnabled then gateway.store.save store else store

@[simp] theorem get_stored (k key : Str) (record : IdempotencyRecord) (store : σ) :
    gateway.store.get k (gateway.stored key record store) =
      if k = key then some record else gateway.store.get k store := by
  rw [← gateway.store.get_put]
  unfold stored
  split_ifs
  · rw [gateway.store.get_save]
  · rfl

@[simp] theorem run_putRecord (key : Str) (record : IdempotencyRecord) (w : CrmWorld σ) :
    (gateway.putRecord key record).run w =
      .ok () { w with store := gateway.stored key record w.store } := rfl

/-- The record that the gateway has for a key: none if idempotency is not enabled. -/
def lookup (key : Str) (store : σ) : Option IdempotencyRecord :=
  if gateway.settings.crmIdempotencyEnabled then gateway.store.get key store else none

/-- What a call that reuses a task returns. -/
def reusedOutcome (task : CrmTaskRequest) (taskId : Str) : CrmTaskOutcome where
  taskId := taskId
  title := task.title
  mocked := gateway.settings.mockCrm
  reused := true
  idempotencyKey := some (gateway.keyOf task)

/-- What the POST of a call comes to: the outcome of `_create_remote_task`. -/
def remoteOutcome (task : CrmTaskRequest) : Except PyError CrmTaskOutcome :=
  match postAnswer crm gateway.settings.httpMaxRetries with
  | .error exc => .error exc
  | .ok (.error exc) => .error exc
  | .ok (.ok body) =>
    match body.tasks with
    | [] => .error ⟨.value, "Unexpected AmoCRM response: ".toList ++ body.data⟩
    | id :: _ => .ok {
        taskId := id, title := task.title, idempotencyKey := some (gateway.keyOf task) }

/-- The payload that a call posts. -/
def payloadOf (task : CrmTaskRequest) : TaskPayload :=
  gateway.taskPayload crm task (gateway.keyOf task)

/-- The tasks that the POST of a call creates. -/
def createdTasks (task : CrmTaskRequest) : List RemoteTask :=
  createdBy (gateway.payloadOf crm task) (attempts crm gateway.settings.httpMaxRetries)

/-- The requests of the POST of a call. -/
def postRequests (task : CrmTaskRequest) : List CrmRequest :=
  gateway.postsOf (gateway.payloadOf crm task) (attempts crm gateway.settings.httpMaxRetries)

/-- The subdomain and the access token are set. -/
def Configured : Prop :=
  gateway.settings.amocrmSubdomain ≠ [] ∧ gateway.settings.amocrmAccessToken ≠ []

theorem run_createRemoteTask (hconfigured : gateway.Configured) (task : CrmTaskRequest)
    (w : CrmWorld σ) :
    (gateway.createRemoteTask crm task (gateway.keyOf task)).run w =
      let w' := { w with
        tasks := (gateway.createdTasks crm task).reverse ++ w.tasks
        requests := w.requests ++ gateway.postRequests crm task }
      match gateway.remoteOutcome crm task with
      | .ok outcome => .ok outcome w'
      | .error exc => .error exc w' := by
  rw [createRemoteTask, if_neg (by simpa [Configured, not_or] using hconfigured),
    EStateM.run_bind, run_httpPost, remoteOutcome]
  cases postAnswer crm gateway.settings.httpMaxRetries with
  | error exc => rfl
  | ok body =>
    cases body with
    | error exc => rfl
    | ok body =>
      simp only [EStateM.run_bind, run_liftResult_ok]
      cases body.tasks <;> rfl

theorem run_createRemoteTask_unconfigured (h : ¬ gateway.Configured) (task : CrmTaskRequest)
    (key : Str) (w : CrmWorld σ) :
    (gateway.createRemoteTask crm task key).run w = .error configurationError w := by
  rw [createRemoteTask, if_pos (by
    by_contra hnot
    exact h (by simpa [Configured, not_or] using hnot))]
  rfl

/-- The record of a task that the search found. -/
def foundRecord (key taskId : Str) : IdempotencyRecord where
  taskId := taskId
  title := []
  idempotencyKey := key
  createdAt := crm.now

/-- The record of a task that a call created. -/
def createdRecord (task : CrmTaskRequest) (outcome : CrmTaskOutcome) : IdempotencyRecord where
  taskId := outcome.taskId
  title := task.title
  idempotencyKey := gateway.keyOf task
  createdAt := crm.now

/-! ### The lookup -/

theorem run_findExisting_of_some {key : Str} {w : CrmWorld σ} {cached : IdempotencyRecord}
    (h : gateway.lookup key w.store = some cached) :
    (gateway.findExisting crm key).run w = .ok (some cached) w := by
  unfold lookup at h
  split_ifs at h with henabled
  rw [findExisting, if_neg (by simp [henabled]), EStateM.run_bind]
  simp [h]

/-- A lookup that misses the store searches the account, if it may. -/
theorem run_findExisting_of_none {key : Str} {w : CrmWorld σ}
    (h : gateway.lookup key w.store = none) :
    (gateway.findExisting crm key).run w =
      if gateway.settings.crmIdempotencyEnabled = true ∧ gateway.settings.mockCrm = false then
        match (gateway.findRemoteTaskByMarker crm key).run w with
        | .error exc w' => .error exc w'
        | .ok none w' => .ok none w'
        | .ok (some taskId) w' => .ok (some (foundRecord crm key taskId))
            { w' with store := gateway.stored key (foundRecord crm key taskId) w'.store }
      else .ok none w := by
  cases henabled : gateway.settings.crmIdempotencyEnabled with
  | false => simp [findExisting, henabled]
  | true =>
    have hget : gateway.store.get key w.store = none := by simpa [lookup, henabled] using h
    cases hmock : gateway.settings.mockCrm with
    | true => simp [findExisting, henabled, hmock, EStateM.run_bind, hget]
    | false =>
      simp only [findExisting, henabled, hmock, EStateM.run_bind, EStateM.run_get, hget,
        and_self, if_true, Bool.true_eq_false, if_false, Bool.false_eq_true]
      cases (gateway.findRemoteTaskByMarker crm key).run w with
      | error exc w' => rfl
      | ok found w' => cases found <;> rfl

/-! ### The ways a call can end -/

/-- The ways a call of `create_task` can end, and the world each of them leaves. -/
inductive CallEnds (task : CrmTaskRequest) (w : CrmWorld σ) :
    EStateM.Result PyError (CrmWorld σ) CrmTaskOutcome → Prop
  /-- The key was stored. -/
  | replayed (cached : IdempotencyRecord)
      (hit : gateway.lookup (gateway.keyOf task) w.store = some cached) :
      CallEnds task w (.ok (gateway.reusedOutcome task cached.taskId) w)
  /-- The search raised. -/
  | searchFailed (miss : gateway.lookup (gateway.keyOf task) w.store = none)
      (gets : List CrmRequest) (isGet : ∀ r ∈ gets, r.isGet = true) (exc : PyError) :
      CallEnds task w (.error exc { w with requests := w.requests ++ gets })
  /-- The search found a task. -/
  | adopted (miss : gateway.lookup (gateway.keyOf task) w.store = none)
      (enabled : gateway.settings.crmIdempotencyEnabled = true)
      (live : gateway.settings.mockCrm = false)
      (gets : List CrmRequest) (isGet : ∀ r ∈ gets, r.isGet = true) (taskId : Str) :
      CallEnds task w (.ok (gateway.reusedOutcome task taskId)
        { w with
          store := gateway.stored (gateway.keyOf task)
            (foundRecord crm (gateway.keyOf task) taskId) w.store
          requests := w.requests ++ gets })
  /-- `MOCK_CRM`: no request is sent. -/
  | mocked (miss : gateway.lookup (gateway.keyOf task) w.store = none)
      (mock : gateway.settings.mockCrm = true) :
      CallEnds task w (.ok (createMockTask task (gateway.keyOf task))
        { w with
          store := gateway.stored (gateway.keyOf task)
            (gateway.createdRecord crm task (createMockTask task (gateway.keyOf task))) w.store })
  /-- The credentials are missing. -/
  | unconfigured (miss : gateway.lookup (gateway.keyOf task) w.store = none)
      (live : gateway.settings.mockCrm = false) (missing : ¬ gateway.Configured)
      (gets : List CrmRequest) (isGet : ∀ r ∈ gets, r.isGet = true) :
      CallEnds task w (.error configurationError { w with requests := w.requests ++ gets })
  /-- The POST raised, or its answer could not be used. -/
  | postFailed (miss : gateway.lookup (gateway.keyOf task) w.store = none)
      (live : gateway.settings.mockCrm = false) (configured : gateway.Configured)
      (gets : List CrmRequest) (isGet : ∀ r ∈ gets, r.isGet = true)
      (exc : PyError) (raised : gateway.remoteOutcome crm task = .error exc) :
      CallEnds task w (.error exc
        { w with
          tasks := (gateway.createdTasks crm task).reverse ++ w.tasks
          requests := w.requests ++ gets ++ gateway.postRequests crm task })
  /-- The POST returned a task. -/
  | posted (miss : gateway.lookup (gateway.keyOf task) w.store = none)
      (live : gateway.settings.mockCrm = false) (configured : gateway.Configured)
      (gets : List CrmRequest) (isGet : ∀ r ∈ gets, r.isGet = true)
      (outcome : CrmTaskOutcome) (returned : gateway.remoteOutcome crm task = .ok outcome) :
      CallEnds task w (.ok outcome
        { w with
          store := gateway.stored (gateway.keyOf task)
            (gateway.createdRecord crm task outcome) w.store
          tasks := (gateway.createdTasks crm task).reverse ++ w.tasks
          requests := w.requests ++ gets ++ gateway.postRequests crm task })

/-- A call whose lookup found nothing goes on to create the task. -/
theorem run_createTask_of_not_found {task : CrmTaskRequest} {w w' : CrmWorld σ}
    (h : (gateway.findExisting crm (gateway.keyOf task)).run w = .ok none w') :
    (gateway.createTask crm task).run w =
      if gateway.settings.mockCrm then
        .ok (createMockTask task (gateway.keyOf task))
          { w' with
            store := gateway.stored (gateway.keyOf task)
              (gateway.createdRecord crm task (createMockTask task (gateway.keyOf task)))
              w'.store }
      else
        match (gateway.createRemoteTask crm task (gateway.keyOf task)).run w' with
        | .error exc w'' => .error exc w''
        | .ok outcome w'' => .ok outcome
            { w'' with
              store := gateway.stored (gateway.keyOf task)
                (gateway.createdRecord crm task outcome) w''.store } := by
  rw [createTask, EStateM.run_bind, h]
  cases hmock : gateway.settings.mockCrm with
  | true => rfl
  | false =>
    simp only [Bool.false_eq_true, if_false, EStateM.run_bind]
    cases (gateway.createRemoteTask crm task (gateway.keyOf task)).run w' <;> rfl

theorem run_createTask_of_found {task : CrmTaskRequest} {w w' : CrmWorld σ}
    {record : IdempotencyRecord}
    (h : (gateway.findExisting crm (gateway.keyOf task)).run w = .ok (some record) w') :
    (gateway.createTask crm task).run w = .ok (gateway.reusedOutcome task record.taskId) w' := by
  rw [createTask, EStateM.run_bind, h]
  rfl

/-- With `MOCK_CRM` a call always returns. -/
theorem createTask_returns_of_mock (hmock : gateway.settings.mockCrm = true)
    (task : CrmTaskRequest) (w : CrmWorld σ) :
    ∃ outcome w', (gateway.createTask crm task).run w = .ok outcome w' := by
  cases hlookup : gateway.lookup (gateway.keyOf task) w.store with
  | some cached =>
    have hfind := run_findExisting_of_some gateway crm hlookup
    exact ⟨_, _, run_createTask_of_found gateway crm hfind⟩
  | none =>
    have hfind := run_findExisting_of_none gateway crm hlookup
    rw [if_neg (by simp [hmock])] at hfind
    have hrun := run_createTask_of_not_found gateway crm hfind
    rw [if_pos hmock] at hrun
    exact ⟨_, _, hrun⟩

/-- The ways a call ends once its lookup found nothing. -/
theorem createTask_ends_of_not_found {task : CrmTaskRequest} {w : CrmWorld σ}
    (miss : gateway.lookup (gateway.keyOf task) w.store = none) {gets : List CrmRequest}
    (isGet : ∀ r ∈ gets, r.isGet = true) (hmock : gateway.settings.mockCrm = true → gets = [])
    (h : (gateway.findExisting crm (gateway.keyOf task)).run w =
      .ok none { w with requests := w.requests ++ gets }) :
    gateway.CallEnds crm task w ((gateway.createTask crm task).run w) := by
  rw [run_createTask_of_not_found gateway crm h]
  cases hlive : gateway.settings.mockCrm with
  | true =>
    rw [hmock hlive]
    simpa using CallEnds.mocked miss hlive
  | false =>
    simp only [Bool.false_eq_true, if_false]
    by_cases hconfigured : gateway.Configured
    · rw [run_createRemoteTask gateway crm hconfigured]
      cases hout : gateway.remoteOutcome crm task with
      | error exc => exact .postFailed miss hlive hconfigured gets isGet exc hout
      | ok outcome => exact .posted miss hlive hconfigured gets isGet outcome hout
    · rw [run_createRemoteTask_unconfigured gateway crm hconfigured]
      exact .unconfigured miss hlive hconfigured gets isGet

/-- The spec of `create_task`, for any behaviour of the account. -/
theorem createTask_ends (task : CrmTaskRequest) (w : CrmWorld σ) :
    gateway.CallEnds crm task w ((gateway.createTask crm task).run w) := by
  cases hlookup : gateway.lookup (gateway.keyOf task) w.store with
  | some cached =>
    rw [run_createTask_of_found gateway crm (run_findExisting_of_some gateway crm hlookup)]
    exact .replayed cached hlookup
  | none =>
    have hfind := run_findExisting_of_none gateway crm hlookup
    by_cases hsearch : gateway.settings.crmIdempotencyEnabled = true ∧
        gateway.settings.mockCrm = false
    · -- the account is searched, which only sends GETs
      rw [if_pos hsearch] at hfind
      obtain ⟨gets, isGet, hw⟩ :=
        (sendsGet_findRemoteTaskByMarker gateway crm (gateway.keyOf task)).readsOnly w
      cases hrun : (gateway.findRemoteTaskByMarker crm (gateway.keyOf task)).run w with
      | error exc w' =>
        rw [hrun] at hfind hw
        obtain rfl : w' = { w with requests := w.requests ++ gets } := hw
        rw [createTask, EStateM.run_bind, hfind]
        exact .searchFailed hlookup gets isGet exc
      | ok found w' =>
        rw [hrun] at hfind hw
        obtain rfl : w' = { w with requests := w.requests ++ gets } := hw
        cases found with
        | none =>
          refine createTask_ends_of_not_found gateway crm hlookup isGet (fun hmock => ?_) hfind
          rw [hsearch.2] at hmock
          cases hmock
        | some taskId =>
          rw [run_createTask_of_found gateway crm hfind]
          exact .adopted hlookup hsearch.1 hsearch.2 gets isGet taskId
    · -- the account is not searched
      rw [if_neg hsearch] at hfind
      have hno : ∀ r ∈ ([] : List CrmRequest), r.isGet = true := by simp
      exact createTask_ends_of_not_found gateway crm hlookup hno (fun _ => rfl)
        (by simpa using hfind)

/-! ### Missing credentials -/

/-- With idempotency enabled, a live call that misses the store sends a request. -/
theorem requests_ne_of_search {task : CrmTaskRequest} {w : CrmWorld σ}
    (henabled : gateway.settings.crmIdempotencyEnabled = true)
    (hlive : gateway.settings.mockCrm = false) (hmissing : ¬ gateway.Configured)
    (hmiss : gateway.store.get (gateway.keyOf task) w.store = none) :
    (worldAfter ((gateway.createTask crm task).run w)).requests ≠ w.requests := by
  have hlookup : gateway.lookup (gateway.keyOf task) w.store = none := by
    rw [lookup, if_pos henabled, hmiss]
  have hfind := run_findExisting_of_none gateway crm hlookup
  rw [if_pos ⟨henabled, hlive⟩] at hfind
  obtain ⟨gets, hne, -, hw⟩ := sendsGet_findRemoteTaskByMarker gateway crm (gateway.keyOf task) w
  have hmore : w.requests ++ gets ≠ w.requests := by simpa using hne
  cases hrun : (gateway.findRemoteTaskByMarker crm (gateway.keyOf task)).run w with
  | error exc w' =>
    rw [hrun] at hfind hw
    obtain rfl : w' = { w with requests := w.requests ++ gets } := hw
    rw [createTask, EStateM.run_bind, hfind]
    exact hmore
  | ok found w' =>
    rw [hrun] at hfind hw
    obtain rfl : w' = { w with requests := w.requests ++ gets } := hw
    cases found with
    | some taskId =>
      rw [run_createTask_of_found gateway crm hfind]
      exact hmore
    | none =>
      rw [run_createTask_of_not_found gateway crm hfind, if_neg (by simp [hlive]),
        run_createRemoteTask_unconfigured gateway crm hmissing]
      exact hmore

/-- **When a call without credentials is refused**, with no request and the store as it was: if and
only if idempotency is not enabled. -/
theorem refused_iff (hlive : gateway.settings.mockCrm = false) (hmissing : ¬ gateway.Configured)
    (task : CrmTaskRequest) (w : CrmWorld σ)
    (hmiss : gateway.store.get (gateway.keyOf task) w.store = none) :
    (gateway.createTask crm task).run w = .error configurationError w ↔
      gateway.settings.crmIdempotencyEnabled = false := by
  constructor
  · intro hrefused
    by_contra henabled
    refine requests_ne_of_search gateway crm (eq_true_of_ne_false henabled) hlive hmissing hmiss ?_
    rw [hrefused]
    rfl
  · intro hdisabled
    have hlookup : gateway.lookup (gateway.keyOf task) w.store = none := by
      rw [lookup, hmiss, ite_self]
    have hfind := run_findExisting_of_none gateway crm hlookup
    rw [if_neg (by simp [hdisabled])] at hfind
    rw [run_createTask_of_not_found gateway crm hfind, if_neg (by simp [hlive]),
      run_createRemoteTask_unconfigured gateway crm hmissing]

/-! ### What a call creates in the account -/

/-- GETs create nothing. -/
theorem filterMap_created_of_isGet {requests : List CrmRequest}
    (h : ∀ q ∈ requests, q.isGet = true) : requests.filterMap CrmRequest.created = [] := by
  rw [List.filterMap_eq_nil_iff]
  intro q hq
  cases q with
  | getTasks url authorization page => rfl
  | postTask url authorization payload created => cases h _ hq

/-- What the POST of a call created. -/
theorem filterMap_created_postRequests (task : CrmTaskRequest) :
    (gateway.postRequests crm task).filterMap CrmRequest.created =
      gateway.createdTasks crm task := by
  rw [postRequests, postsOf, createdTasks, createdBy, List.filterMap_map]
  rfl

theorem callRecord_task (crm : AmoCrm) (task : CrmTaskRequest) (w : CrmWorld σ) :
    (gateway.callRecord crm task w).task = task := by
  unfold callRecord
  split <;> rfl

theorem callRecord_before (crm : AmoCrm) (task : CrmTaskRequest) (w : CrmWorld σ) :
    (gateway.callRecord crm task w).before = w := by
  unfold callRecord
  split <;> rfl

/-- A call creates the tasks of its POST, or none. -/
theorem created_callRecord (task : CrmTaskRequest) (w : CrmWorld σ) :
    (gateway.callRecord crm task w).created = [] ∨
      (gateway.callRecord crm task w).created = gateway.createdTasks crm task := by
  have hends := gateway.createTask_ends crm task w
  rw [CallRecord.created, CallRecord.requests, callRecord]
  generalize (gateway.createTask crm task).run w = result at hends ⊢
  cases hends with
  | replayed cached hit | mocked miss mock => exact Or.inl (by simp)
  | searchFailed miss gets isGet exc | adopted miss enabled live gets isGet taskId
    | unconfigured miss live missing gets isGet =>
    exact Or.inl (by simp [filterMap_created_of_isGet isGet])
  | postFailed miss live configured gets isGet exc raised
    | posted miss live configured gets isGet outcome returned =>
    refine Or.inr ?_
    simp only [List.append_assoc, List.drop_left, List.filterMap_append,
      filterMap_created_of_isGet isGet, filterMap_created_postRequests, List.nil_append]

/-- A live call whose lookup found nothing creates the tasks of its POST, if it may POST. -/
theorem created_of_not_found (hlive : gateway.settings.mockCrm = false) {task : CrmTaskRequest}
    {w : CrmWorld σ} {gets : List CrmRequest} (isGet : ∀ r ∈ gets, r.isGet = true)
    (h : (gateway.findExisting crm (gateway.keyOf task)).run w =
      .ok none { w with requests := w.requests ++ gets })
    (hconfigured : gateway.Configured) :
    (gateway.callRecord crm task w).created = gateway.createdTasks crm task := by
  rw [CallRecord.created, CallRecord.requests, callRecord,
    run_createTask_of_not_found gateway crm h, if_neg (by simp [hlive]),
    run_createRemoteTask gateway crm hconfigured]
  cases gateway.remoteOutcome crm task <;>
    simp only [List.append_assoc, List.drop_left, List.filterMap_append,
      filterMap_created_of_isGet isGet, filterMap_created_postRequests, List.nil_append]

/-! ### A small account -/

/-- The digests of two tasks. -/
def twoDigests (text : Str) : Str :=
  if text = "T\nD".toList then
    "d1ee079e9ce40d9498c2b712cdd09ecb7ea99914c0b3f72460bdde2a149d542e".toList
  else if text = "T\n[pipeline:idempotency:".toList then
    "3bbacc8406f5bd6d4b50a6a223deb181ac8c69b15ce1892300954784ad6f25dc".toList
  else []

/-- A gateway with credentials and a Redis store. -/
def liveGateway : AmoCrmGateway (Str → Option IdempotencyRecord) where
  settings := { amocrmSubdomain := "example".toList, amocrmAccessToken := "token".toList }
  store := redisIdempotencyStore
  sha256 :=
    { hexdigest := twoDigests
      hex := fun text c hc => by
        have hall : ((twoDigests text).all fun c => c ∈ "0123456789abcdef".toList) = true := by
          unfold twoDigests
          split_ifs <;> decide
        exact of_decide_eq_true (List.all_eq_true.mp hall c hc) }

def plainTask : CrmTaskRequest := ⟨"T".toList, "D".toList⟩

/-- A task whose description opens a marker and does not close it. -/
def openMarkerTask : CrmTaskRequest := ⟨"T".toList, "[pipeline:idempotency:".toList⟩

/-- An account that serves its pages. -/
def pagedAccount (postTask : ℕ → PostAttempt) : AmoCrm where
  now := 0
  getTasks page _ tasks := .response 200 (.ok ((tasks.drop ((page - 1) * 250)).take 250)) []
  postTask := postTask

/-- The attempt creates a task and returns its id. -/
def returned (id : Str) : PostAttempt := ⟨some id, .response 200 (.ok ⟨[], [id]⟩) []⟩

/-- The attempt creates a task, and its answer is lost. -/
def answerLost (id : Str) : PostAttempt :=
  ⟨some id, .raised ⟨.transport, "The read operation timed out".toList⟩⟩

/-- An empty store and an account with these tasks. -/
def accountOf (tasks : List RemoteTask) : CrmWorld (Str → Option IdempotencyRecord) where
  store _ := none
  tasks := tasks

/-! ### A gateway without an access token -/

def noTokenGateway (enabled : Bool) : AmoCrmGateway (Str → Option IdempotencyRecord) :=
  { liveGateway with
    settings := { amocrmSubdomain := "example".toList, crmIdempotencyEnabled := enabled } }

/-- The HTTP library refuses a header that ends with a blank. -/
def refusedHeader : PyError := ⟨.transport, "Illegal header value b'Bearer '".toList⟩

/-- An account that no request reaches. -/
def unreachedAccount : AmoCrm where
  now := 0
  getTasks _ _ _ := .raised refusedHeader
  postTask _ := ⟨none, .raised refusedHeader⟩

theorem refused_iff_disabled :
    ((noTokenGateway false).createTask unreachedAccount plainTask).run (accountOf []) =
        .error configurationError (accountOf []) ↔
      (noTokenGateway false).settings.crmIdempotencyEnabled = false :=
  (noTokenGateway false).refused_iff unreachedAccount rfl (fun h => h.2 rfl) plainTask
    (accountOf []) rfl

/-- With idempotency enabled, the search raises before the credentials are checked. -/
theorem not_refused_searchFirst :
    ¬ ∀ (gateway : AmoCrmGateway (Str → Option IdempotencyRecord)) (crm : AmoCrm)
      (task : CrmTaskRequest) (w : CrmWorld (Str → Option IdempotencyRecord)),
      gateway.settings.mockCrm = false → ¬ gateway.Configured →
      gateway.store.get (gateway.keyOf task) w.store = none →
      (gateway.createTask crm task).run w = .error configurationError w := by
  intro hall
  have h := hall (noTokenGateway true) unreachedAccount plainTask (accountOf []) rfl
    (fun h => h.2 rfl) rfl
  have hraised : outcomeOf (((noTokenGateway true).createTask unreachedAccount plainTask).run
      (accountOf [])) = .error refusedHeader := rfl
  rw [h] at hraised
  exact absurd (Except.error.inj hraised) (by decide)

end MarketplacePipeline.AmoCrmGateway
