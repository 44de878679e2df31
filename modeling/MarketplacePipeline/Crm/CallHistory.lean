import MarketplacePipeline.Crm.AmoCrmGateway

/-!
# Sequences of `create_task` calls

A `CallRecord` is one call with the worlds before and after it.  `callRecords` are the calls of a
sequence, made one after another whatever they come to; `pipelineRecords` are the calls that one
run of the pipeline makes, which ends at the first call that raises.
-/

namespace MarketplacePipeline

/-- One call of `create_task`. -/
structure CallRecord (σ : Type) where
  task : CrmTaskRequest
  before : CrmWorld σ
  after : CrmWorld σ
  outcome : Except PyError CrmTaskOutcome

/-- The task that a request created. -/
def CrmRequest.created : CrmRequest → Option RemoteTask
  | .getTasks .. => none
  | .postTask _ _ _ created => created

namespace CallRecord

variable {σ : Type}

/-- The requests that the call sent. -/
def requests (r : CallRecord σ) : List CrmRequest :=
  r.after.requests.drop r.before.requests.length

/-- The tasks that the call created in the account. -/
def created (r : CallRecord σ) : List RemoteTask := r.requests.filterMap CrmRequest.created

end CallRecord

namespace AmoCrmGateway

variable {σ : Type} (gateway : AmoCrmGateway σ)

/-- One call, from the world it finds. -/
def callRecord (crm : AmoCrm) (task : CrmTaskRequest) (w : CrmWorld σ) : CallRecord σ :=
  match (gateway.createTask crm task).run w with
  | .ok outcome w' => ⟨task, w, w', .ok outcome⟩
  | .error exc w' => ⟨task, w, w', .error exc⟩

/-- The calls of a sequence. -/
def callRecords : List (AmoCrm × CrmTaskRequest) → CrmWorld σ → List (CallRecord σ)
  | [], _ => []
  | (crm, task) :: calls, w =>
    let r := gateway.callRecord crm task w
    r :: callRecords calls r.after

/-- The calls that `createTasks` makes. -/
def pipelineRecords : List (AmoCrm × CrmTaskRequest) → CrmWorld σ → List (CallRecord σ)
  | [], _ => []
  | (crm, task) :: calls, w =>
    let r := gateway.callRecord crm task w
    match r.outcome with
    | .ok _ => r :: pipelineRecords calls r.after
    | .error _ => [r]

/-- The world after a sequence of calls. -/
def worldAfterCalls (records : List (CallRecord σ)) (w : CrmWorld σ) : CrmWorld σ :=
  match records.getLast? with
  | none => w
  | some r => r.after

end AmoCrmGateway

end MarketplacePipeline
