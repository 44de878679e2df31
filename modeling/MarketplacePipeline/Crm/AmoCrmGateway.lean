import MarketplacePipeline.Crm.IdempotencyPolicy
import MarketplacePipeline.Crm.IdempotencyStore
import MarketplacePipeline.Http.HttpClient

/-!
# The AmoCRM gateway

`createTask gateway crm task` is one call of `create_task`.  `crm` is the AmoCRM account during
that call: how it answers each attempt of a request, and whether a POST attempt creates a task.
The world is the idempotency store, the tasks of the account (the most recently updated first) and
the requests that were sent.
-/

namespace MarketplacePipeline

/-- The settings that the gateway reads. -/
structure CrmSettings where
  mockCrm : Bool := false
  crmIdempotencyEnabled : Bool := true
  amocrmSubdomain : Str := []
  amocrmAccessToken : Str := []
  amocrmResponsibleUserId : ℤ := 0
  httpMaxRetries : ℤ := 5

/-- A task of the AmoCRM account. -/
structure RemoteTask where
  id : Str
  text : Str
  deriving DecidableEq, Repr

/-- The task in the body of a POST. -/
structure TaskPayload where
  text : Str
  completeTill : ℤ
  responsibleUserId : Option ℤ
  deriving DecidableEq, Repr

/-- A request to `/api/v4/tasks`, with the task that a POST attempt created. -/
inductive CrmRequest
  | getTasks (url authorization : Str) (page : ℕ)
  | postTask (url authorization : Str) (payload : TaskPayload) (created : Option RemoteTask)
  deriving DecidableEq, Repr

/-- The JSON answer to a POST: its text, and the ids in `_embedded.tasks`. -/
structure PostBody where
  data : Str
  tasks : List Str

/-- What happens to a POST attempt: the id of the task it creates, if it creates one, and the
answer.  A body that cannot be read stands for the exception that reading it raises. -/
structure PostAttempt where
  created : Option Str
  answer : HttpAnswer (Except PyError PostBody)

/-- The AmoCRM account during a call: the clock, and the answers to the attempts (from 0) of the
requests for a page and of the POST. -/
structure AmoCrm where
  now : Timestamp
  getTasks : (page attempt : ℕ) → List RemoteTask → HttpAnswer (Except PyError (List RemoteTask))
  postTask : (attempt : ℕ) → PostAttempt

/-- What a call touches. -/
structure CrmWorld (σ : Type) where
  store : σ
  tasks : List RemoteTask
  requests : List CrmRequest := []

abbrev CrmM (σ : Type) := EStateM PyError (CrmWorld σ)

/-- A gateway: its settings, the store it uses and the digest. -/
structure AmoCrmGateway (σ : Type) where
  settings : CrmSettings
  store : IdempotencyStorePort σ
  sha256 : Sha256

namespace AmoCrmGateway

open IdempotencyPolicy

variable {σ : Type} (gateway : AmoCrmGateway σ) (crm : AmoCrm)

/-- `compute_task_idempotency_key(task)`. -/
def keyOf (task : CrmTaskRequest) : Str := computeTaskIdempotencyKey gateway.sha256 task

/-- `f"https://{amocrm_subdomain}.amocrm.ru/api/v4/tasks"`. -/
def url : Str :=
  "https://".toList ++ gateway.settings.amocrmSubdomain ++ ".amocrm.ru/api/v4/tasks".toList

/-- `f"Bearer {amocrm_access_token}"`. -/
def authorization : Str := "Bearer ".toList ++ gateway.settings.amocrmAccessToken

/-! ### Requests -/

/-- `self._http.get(url, ...)` for one page. -/
def httpGet (page : ℕ) : CrmM σ (Except PyError (List RemoteTask)) :=
  HttpClient.retry gateway.settings.httpMaxRetries fun attempt => do
    let tasks := (← get).tasks
    -- every attempt is a request of its own
    modify fun w =>
      { w with requests := w.requests ++ [.getTasks gateway.url gateway.authorization page] }
    liftResult (HttpClient.checkAnswer (crm.getTasks page attempt tasks))

/-- One attempt of the POST. -/
def postAttempt (payload : TaskPayload) (attempt : ℕ) : CrmM σ (Except PyError PostBody) := do
  let created := (crm.postTask attempt).created.map fun id => RemoteTask.mk id payload.text
  modify fun w =>
    { w with
      tasks := created.toList ++ w.tasks
      requests :=
        w.requests ++ [.postTask gateway.url gateway.authorization payload created] }
  liftResult (HttpClient.checkAnswer (crm.postTask attempt).answer)

/-- `self._http.post(url, ..., json=[payload])`. -/
def httpPost (payload : TaskPayload) : CrmM σ (Except PyError PostBody) :=
  HttpClient.retry gateway.settings.httpMaxRetries (gateway.postAttempt crm payload)

/-! ### `create_task` -/

/-- The pages from `page` on, `remaining` of them at most. -/
def findFrom (key : Str) : (remaining page : ℕ) → CrmM σ (Option Str)
  | 0, _ => pure none
  | remaining + 1, page => do
    let tasks ← liftResult (← gateway.httpGet crm page)
    -- `if not tasks: break`
    if tasks = [] then pure none
    else
      match tasks.find? fun item => extractIdempotencyMarker item.text = some key with
      | some item => pure (some item.id)
      | none =>
        -- a page that is not full is the last one
        if tasks.length < 250 then pure none else findFrom key remaining (page + 1)

/-- `_find_remote_task_by_marker(idempotency_key)`: `while page <= 5`. -/
def findRemoteTaskByMarker (key : Str) : CrmM σ (Option Str) := gateway.findFrom crm key 5 1

/-- `self._store.put(key, record)`, then `self._store.save()` if idempotency is enabled. -/
def putRecord (key : Str) (record : IdempotencyRecord) : CrmM σ Unit :=
  modify fun w =>
    let store := gateway.store.put key record w.store
    { w with
      store := if gateway.settings.crmIdempotencyEnabled then gateway.store.save store else store }

/-- `_find_existing(idempotency_key)`. -/
def findExisting (key : Str) : CrmM σ (Option IdempotencyRecord) := do
  if gateway.settings.crmIdempotencyEnabled = false then pure none
  else
    match gateway.store.get key (← get).store with
    | some cached => pure (some cached)
    | none =>
      -- in mock mode there is no account to search
      if gateway.settings.mockCrm then pure none
      else
        match ← gateway.findRemoteTaskByMarker crm key with
        | none => pure none
        | some remoteTaskId =>
          let record : IdempotencyRecord :=
            { taskId := remoteTaskId, title := [], idempotencyKey := key, createdAt := crm.now }
          gateway.putRecord key record
          pure (some record)

/-- `_create_mock_task(task, idempotency_key)`. -/
def createMockTask (task : CrmTaskRequest) (key : Str) : CrmTaskOutcome where
  taskId := "mock-task-".toList ++ key.take 12
  title := task.title
  mocked := true
  idempotencyKey := some key

/-- The payload of `_create_remote_task`; the task is due in three days. -/
def taskPayload (task : CrmTaskRequest) (key : Str) : TaskPayload where
  text := appendIdempotencyMarker (task.title ++ "\n\n".toList ++ task.description) key
  completeTill := unixSeconds (crm.now + 3 * 86400 * 1000000)
  responsibleUserId :=
    if gateway.settings.amocrmResponsibleUserId = 0 then none
    else some gateway.settings.amocrmResponsibleUserId

/-- `CrmConfigurationError("AMOCRM_SUBDOMAIN and AMOCRM_ACCESS_TOKEN are required")`. -/
def configurationError : PyError :=
  ⟨.crmConfiguration, "AMOCRM_SUBDOMAIN and AMOCRM_ACCESS_TOKEN are required".toList⟩

/-- `_create_remote_task(task, idempotency_key)`. -/
def createRemoteTask (task : CrmTaskRequest) (key : Str) : CrmM σ CrmTaskOutcome := do
  if gateway.settings.amocrmSubdomain = [] ∨ gateway.settings.amocrmAccessToken = [] then
    throw configurationError
  else
    let body ← liftResult (← gateway.httpPost crm (gateway.taskPayload crm task key))
    match body.tasks with
    -- the task may exist, but its id is not known
    | [] => throw ⟨.value, "Unexpected AmoCRM response: ".toList ++ body.data⟩
    | id :: _ => pure { taskId := id, title := task.title, idempotencyKey := some key }

/-- `create_task(task)`. -/
def createTask (task : CrmTaskRequest) : CrmM σ CrmTaskOutcome := do
  let key := gateway.keyOf task
  match ← gateway.findExisting crm key with
  | some existing =>
    pure {
      taskId := existing.taskId
      title := task.title
      mocked := gateway.settings.mockCrm
      reused := true
      idempotencyKey := some key }
  | none =>
    let outcome ←
      if gateway.settings.mockCrm then pure (createMockTask task key)
      else gateway.createRemoteTask crm task key
    gateway.putRecord key
      { taskId := outcome.taskId, title := task.title, idempotencyKey := key,
        createdAt := crm.now }
    pure outcome

/-- The CRM step of `RunPipelineUseCase.execute`: one call for each task, each with the account as
it is then. -/
def createTasks : List (AmoCrm × CrmTaskRequest) → CrmM σ (List CrmTaskOutcome)
  | [] => pure []
  | (crm, task) :: calls => do
    let outcome ← gateway.createTask crm task
    let outcomes ← createTasks calls
    pure (outcome :: outcomes)

end AmoCrmGateway

end MarketplacePipeline
