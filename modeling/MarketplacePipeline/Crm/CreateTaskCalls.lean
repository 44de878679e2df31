import MarketplacePipeline.Algorithm.Schedule
import MarketplacePipeline.Crm.AmoCrmGateway

/-!
# Concurrent calls of `create_task`

Any number of live gateways with idempotency enabled share one store and one AmoCRM account.  A
step of a call is one of its store operations, its search of the account, or its POST; none of
them fails.  The state keeps the tasks that were created, with the call that posted each of them.
-/

namespace MarketplacePipeline.AmoCrmGateway

open IdempotencyPolicy

variable {σ ι : Type}

/-- Where a call stands in `create_task`. -/
inductive CreateTaskPc
  /-- `self._store.get` is next. -/
  | storeGet
  /-- `_find_remote_task_by_marker` is next. -/
  | search
  /-- The search found a task: `self._store.put` is next, then `self._store.save`. -/
  | putFound (taskId : Str)
  | saveFound (taskId : Str)
  /-- `_create_remote_task` is next. -/
  | post
  /-- The task was created: `self._store.put` is next, then `self._store.save`. -/
  | putCreated (outcome : CrmTaskOutcome)
  | saveCreated (outcome : CrmTaskOutcome)
  | returned (outcome : CrmTaskOutcome)
  deriving DecidableEq

/-- Calls of `create_task`: the gateway settings and the store they share, the task of each, the
clock, and the id that the account gives to a new task. -/
structure Calls (ι σ : Type) where
  gateway : AmoCrmGateway σ
  enabled : gateway.settings.crmIdempotencyEnabled = true
  live : gateway.settings.mockCrm = false
  now : Timestamp
  newId : List RemoteTask → Str
  task : ι → CrmTaskRequest

namespace Calls

variable (calls : Calls ι σ)

/-- The idempotency key of a call. -/
def key (i : ι) : Str := calls.gateway.keyOf (calls.task i)

/-- The record that a call puts. -/
def record (i : ι) (taskId title : Str) : IdempotencyRecord where
  taskId := taskId
  title := title
  idempotencyKey := calls.key i
  createdAt := calls.now

/-- What a call returns. -/
def outcome (i : ι) (taskId : Str) (reused : Bool) : CrmTaskOutcome where
  taskId := taskId
  title := (calls.task i).title
  mocked := calls.gateway.settings.mockCrm
  reused := reused
  idempotencyKey := some (calls.key i)

/-- The task that the POST of a call creates. -/
def newTask (i : ι) (tasks : List RemoteTask) : RemoteTask where
  id := calls.newId tasks
  text := appendIdempotencyMarker
    ((calls.task i).title ++ "\n\n".toList ++ (calls.task i).description) (calls.key i)

end Calls

/-- The shared store, the tasks of the account (the most recently updated first), and the tasks
that were created by the calls. -/
structure CallsWorld (ι σ : Type) where
  store : σ
  tasks : List RemoteTask
  created : List (ι × RemoteTask)

/-- Calls that share a world. -/
abbrev CallsState (ι σ : Type) := Schedule.Interleaved ι CreateTaskPc (CallsWorld ι σ)

/-- The first task that decodes to a key, among the 1250 that the search can see. -/
def findTask (key : Str) (tasks : List RemoteTask) : Option RemoteTask :=
  (tasks.take 1250).find? fun item => extractIdempotencyMarker item.text = some key

variable (calls : Calls ι σ)

/-- The next step of call `i`. -/
def callsStep (i : ι) : CreateTaskPc → CallsWorld ι σ → CreateTaskPc × CallsWorld ι σ
  | .storeGet, w =>
    match calls.gateway.store.get (calls.key i) w.store with
    | some cached => (.returned (calls.outcome i cached.taskId true), w)
    | none => (.search, w)
  | .search, w =>
    match findTask (calls.key i) w.tasks with
    | some item => (.putFound item.id, w)
    | none => (.post, w)
  | .putFound taskId, w =>
    (.saveFound taskId,
      { w with store := calls.gateway.store.put (calls.key i) (calls.record i taskId []) w.store })
  | .saveFound taskId, w =>
    (.returned (calls.outcome i taskId true), { w with store := calls.gateway.store.save w.store })
  | .post, w =>
    -- nothing was reserved: the call posts whatever has happened since its search
    (.putCreated (calls.outcome i (calls.newId w.tasks) false),
      { w with
        tasks := calls.newTask i w.tasks :: w.tasks
        created := w.created ++ [(i, calls.newTask i w.tasks)] })
  | .putCreated outcome, w =>
    (.saveCreated outcome,
      { w with
        store := calls.gateway.store.put (calls.key i)
          (calls.record i outcome.taskId (calls.task i).title) w.store })
  | .saveCreated outcome, w =>
    (.returned outcome, { w with store := calls.gateway.store.save w.store })
  | .returned outcome, w => (.returned outcome, w)

/-- Call `i` takes its next step. -/
def step [DecidableEq ι] (i : ι) : CallsState ι σ → CallsState ι σ :=
  Schedule.stepParty (callsStep calls i) i

/-- No call has started. -/
def start (store : σ) (tasks : List RemoteTask) : CallsState ι σ :=
  ⟨⟨store, tasks, []⟩, fun _ => .storeGet⟩

end MarketplacePipeline.AmoCrmGateway
