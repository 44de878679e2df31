import MarketplacePipeline.Jobs.JobRepositories
import MarketplacePipeline.Sql.Table

/-!
# The statements of `SqliteJobRepository`

`create` and `update` pass their values to SQLite by position, as tuples that are aligned by hand
with the columns that the statements name; `_from_row` reads the columns of a row by name.  This is
the repository at that level, for any class of datetimes whose `isoformat()` is read back by
`fromisoformat` (`IsoFormat`).
-/

namespace MarketplacePipeline

/-- Datetimes that are read back from their texts. -/
structure IsoFormat (τ : Type) where
  isoformat : τ → Str
  fromisoformat : Str → Except PyError τ
  isoformat_ne_nil : ∀ time, isoformat time ≠ []
  fromisoformat_isoformat : ∀ time, fromisoformat (isoformat time) = .ok time

/-- Aware datetimes are. -/
def dateTimeFormat : IsoFormat DateTime where
  isoformat time := time.isoformat
  fromisoformat := fromisoformat
  isoformat_ne_nil time hnil := by
    have hread := fromisoformat_isoformat time
    rw [hnil] at hread
    cases hread
  fromisoformat_isoformat := fromisoformat_isoformat

/-- The columns of `pipeline_jobs`. -/
inductive JobColumn
  | id
  | status
  | createdAt
  | startedAt
  | finishedAt
  | collectionTarget
  | collectedCount
  | classifiedCount
  | crmTasksCount
  | outputPath
  | errorMessage
  | correlationId
  deriving DecidableEq

inductive SqliteValue
  | integer (n : ℤ)
  | text (text : Str)
  deriving DecidableEq

abbrev SqliteRow := Sql.Row JobColumn SqliteValue

/-- `_SCHEMA`. -/
def jobsSchema : Sql.Schema JobColumn where
  key := .id
  notNull := [.status, .createdAt, .collectionTarget]

namespace JobStatus

/-- `status.value`. -/
def value : JobStatus → Str
  | pending => "pending".toList
  | running => "running".toList
  | completed => "completed".toList
  | failed => "failed".toList

/-- `JobStatus(value)`. -/
def ofValue (value : Option SqliteValue) : Except PyError JobStatus :=
  if value = some (.text pending.value) then .ok pending
  else if value = some (.text running.value) then .ok running
  else if value = some (.text completed.value) then .ok completed
  else if value = some (.text failed.value) then .ok failed
  else .error ⟨.value, "not a valid JobStatus".toList⟩

end JobStatus

namespace SqliteStatements

/-- What `PipelineJob(...)` raises for a value that a field cannot have. -/
def validationError : PyError := ⟨.value, "validation error for PipelineJob".toList⟩

/-- A field of type `str | None`. -/
def textField : Option SqliteValue → Except PyError (Option Str)
  | none => .ok none
  | some (.text text) => .ok (some text)
  | some (.integer _) => .error validationError

/-- A field of type `int | None`. -/
def intField : Option SqliteValue → Except PyError (Option ℤ)
  | none => .ok none
  | some (.integer n) => .ok (some n)
  | some (.text _) => .error validationError

/-- A field that must not be `None`. -/
def required {α : Type} : Option α → Except PyError α
  | none => .error validationError
  | some a => .ok a

/-- `sqlite3` takes a parameter. -/
def bindsValue : Option SqliteValue → Bool
  | some (.integer n) => fitsInt 64 n
  | some (.text _) | none => true

def binds (params : List (Option SqliteValue)) : Bool := params.all bindsValue

/-- The columns of the `INSERT`. -/
def insertColumns : List JobColumn :=
  [.id, .status, .createdAt, .startedAt, .finishedAt,
    .collectionTarget, .collectedCount, .classifiedCount,
    .crmTasksCount, .outputPath, .errorMessage, .correlationId]

/-- The columns that the `UPDATE` sets. -/
def updateColumns : List JobColumn :=
  [.status, .startedAt, .finishedAt,
    .collectedCount, .classifiedCount,
    .crmTasksCount, .outputPath, .errorMessage]

variable {τ : Type} (iso : IsoFormat τ)

/-- `_dt(value)`. -/
def dt (value : Option τ) : Option Str := value.map iso.isoformat

/-- `_to_row(job)`. -/
def toRow (job : JobRecord τ) : List (Option SqliteValue) :=
  [some (.text job.id),
    some (.text job.status.value),
    some (.text (iso.isoformat job.createdAt)),
    (dt iso job.startedAt).map .text,
    (dt iso job.finishedAt).map .text,
    some (.integer job.collectionTarget),
    job.collectedCount.map .integer,
    job.classifiedCount.map .integer,
    job.crmTasksCount.map .integer,
    job.outputPath.map .text,
    job.errorMessage.map .text,
    job.correlationId.map .text]

/-- The parameters of the `UPDATE`. -/
def updateParams (job : JobRecord τ) : List (Option SqliteValue) :=
  [some (.text job.status.value),
    (dt iso job.startedAt).map .text,
    (dt iso job.finishedAt).map .text,
    job.collectedCount.map .integer,
    job.classifiedCount.map .integer,
    job.crmTasksCount.map .integer,
    job.outputPath.map .text,
    job.errorMessage.map .text,
    some (.text job.id)]

/-- `create(job)`; `none` if it raises. -/
def create (job : JobRecord τ) (rows : List SqliteRow) : Option (List SqliteRow) :=
  if binds (toRow iso job) then Sql.insert jobsSchema insertColumns (toRow iso job) rows else none

/-- `update(job)`; `none` if it raises. -/
def update (job : JobRecord τ) (rows : List SqliteRow) : Option (List SqliteRow) :=
  if binds (updateParams iso job) then
    Sql.update jobsSchema updateColumns .id (updateParams iso job) rows
  else none

/-- `_parse_dt(value)`. -/
def parseDt : Option SqliteValue → Except PyError (Option τ)
  | none | some (.text []) => .ok none
  | some (.text text) => (iso.fromisoformat text).map some
  | some (.integer n) =>
    if n = 0 then .ok none
    else .error ⟨.exception, "fromisoformat: argument must be str".toList⟩

/-- `_from_row(row)`, when `datetime.now(tz=UTC)` is `now`. -/
def fromRow (now : τ) (row : SqliteRow) : Except PyError (JobRecord τ) := do
  let id ← textField (row .id)
  let status ← JobStatus.ofValue (row .status)
  let createdAt ← parseDt iso (row .createdAt)
  let startedAt ← parseDt iso (row .startedAt)
  let finishedAt ← parseDt iso (row .finishedAt)
  let collectionTarget ← intField (row .collectionTarget)
  let collectedCount ← intField (row .collectedCount)
  let classifiedCount ← intField (row .classifiedCount)
  let crmTasksCount ← intField (row .crmTasksCount)
  let outputPath ← textField (row .outputPath)
  let errorMessage ← textField (row .errorMessage)
  let correlationId ← textField (row .correlationId)
  return {
    id := ← required id
    status := status
    createdAt := createdAt.getD now
    startedAt := startedAt
    finishedAt := finishedAt
    collectionTarget := ← required collectionTarget
    collectedCount := collectedCount
    classifiedCount := classifiedCount
    crmTasksCount := crmTasksCount
    outputPath := outputPath
    errorMessage := errorMessage
    correlationId := correlationId }

/-- `get(job_id)`. -/
def get (now : τ) (jobId : Str) (rows : List SqliteRow) :
    Except PyError (Option (JobRecord τ)) :=
  match Sql.select .id (some (.text jobId)) rows with
  | none => .ok none
  | some row => (fromRow iso now row).map some

/-- A call of `create`, `update` or `get`. -/
inductive JobCall (τ : Type)
  | create (job : JobRecord τ)
  | update (job : JobRecord τ)
  | get (jobId : Str)

/-- The table after a call. -/
def step : JobCall τ → List SqliteRow → List SqliteRow
  | .create job, rows => (create iso job rows).getD rows
  | .update job, rows => (update iso job rows).getD rows
  | .get _, rows => rows

end SqliteStatements

end MarketplacePipeline
