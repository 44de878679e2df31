import MarketplacePipeline.Algorithm.OrderedPrefix
import MarketplacePipeline.Algorithm.PossibleAnswers
import MarketplacePipeline.Domain.PipelineJob
import MarketplacePipeline.Python.DateTime
import Mathlib.Data.Char
import Mathlib.Data.List.Lex

/-!
# The two job repositories

`SqliteJobRepository` keeps the times of a job as texts of `isoformat()`, `PostgresJobRepository`
keeps them as instants.  `JobRecord τ` is a job or a row whose times are of type `τ`.  What the
databases refuse is part of the model: SQLite an integer that does not fit 64 bits; PostgreSQL an
integer column that does not fit 32 bits, a text with a NUL, an offset of 16 hours or more or with a
fraction of a second, and a negative `LIMIT`.  A PostgreSQL session whose time zone is UTC cannot
read an instant that is outside the years of `datetime`.  A result is what the caller sees of it:
the times of a job as instants, or that the call raised.
-/

namespace MarketplacePipeline

open OrderedPrefix PossibleAnswers

/-- A job, or a row of the table, with times of type `τ`. -/
structure JobRecord (τ : Type) where
  id : Str
  status : JobStatus := .pending
  createdAt : τ
  startedAt : Option τ := none
  finishedAt : Option τ := none
  collectionTarget : ℤ
  collectedCount : Option ℤ := none
  classifiedCount : Option ℤ := none
  crmTasksCount : Option ℤ := none
  outputPath : Option Str := none
  errorMessage : Option Str := none
  correlationId : Option Str := none
  deriving DecidableEq

namespace JobRecord

variable {τ τ' : Type}

/-- The same job with other times. -/
def map (f : τ → τ') (job : JobRecord τ) : JobRecord τ' where
  id := job.id
  status := job.status
  createdAt := f job.createdAt
  startedAt := job.startedAt.map f
  finishedAt := job.finishedAt.map f
  collectionTarget := job.collectionTarget
  collectedCount := job.collectedCount
  classifiedCount := job.classifiedCount
  crmTasksCount := job.crmTasksCount
  outputPath := job.outputPath
  errorMessage := job.errorMessage
  correlationId := job.correlationId

/-- A row after an `UPDATE` with the values of a job. -/
def overwrite (row job : JobRecord τ) : JobRecord τ :=
  { row with
    status := job.status
    startedAt := job.startedAt
    finishedAt := job.finishedAt
    collectedCount := job.collectedCount
    classifiedCount := job.classifiedCount
    crmTasksCount := job.crmTasksCount
    outputPath := job.outputPath
    errorMessage := job.errorMessage }

/-- The parameters of an `UPDATE`, by their type. -/
def updatedInts (job : JobRecord τ) : List ℤ :=
  job.collectedCount.toList ++ job.classifiedCount.toList ++ job.crmTasksCount.toList

def updatedTexts (job : JobRecord τ) : List Str :=
  job.id :: (job.outputPath.toList ++ job.errorMessage.toList)

def updatedTimes (job : JobRecord τ) : List τ := job.startedAt.toList ++ job.finishedAt.toList

/-- The parameters of an `INSERT`, by their type. -/
def insertedInts (job : JobRecord τ) : List ℤ := job.collectionTarget :: job.updatedInts

def insertedTexts (job : JobRecord τ) : List Str := job.updatedTexts ++ job.correlationId.toList

def insertedTimes (job : JobRecord τ) : List τ := job.createdAt :: job.updatedTimes

end JobRecord

/-! ### SQL statements -/

section Statements

variable {τ : Type}

/-- `INSERT INTO pipeline_jobs ...`, unless the primary key is taken. -/
def insertRow (row : JobRecord τ) (rows : List (JobRecord τ)) : Option (List (JobRecord τ)) :=
  if rows.any fun other => other.id = row.id then none else some (rows ++ [row])

/-- `UPDATE pipeline_jobs SET ... WHERE id = ?`. -/
def updateRows (row : JobRecord τ) (rows : List (JobRecord τ)) : List (JobRecord τ) :=
  rows.map fun other => if other.id = row.id then other.overwrite row else other

/-- `SELECT * FROM pipeline_jobs WHERE id = ?`. -/
def findRow (jobId : Str) (rows : List (JobRecord τ)) : Option (JobRecord τ) :=
  rows.find? fun row => row.id = jobId

/-- An integer of `bits` bits. -/
def fitsInt (bits : ℕ) (n : ℤ) : Bool := -2 ^ (bits - 1) ≤ n ∧ n < 2 ^ (bits - 1)

end Statements

namespace SqliteJobRepository

/-- `_to_row(job)`. -/
def toRow (job : JobRecord DateTime) : JobRecord Str :=
  job.map fun value => value.isoformat

/-- `create(job)`; `none` if it raises. -/
def create (job : JobRecord DateTime) (rows : List (JobRecord Str)) :
    Option (List (JobRecord Str)) :=
  if job.insertedInts.all (fitsInt 64) then insertRow (toRow job) rows else none

/-- `update(job)`; `none` if it raises. -/
def update (job : JobRecord DateTime) (rows : List (JobRecord Str)) :
    Option (List (JobRecord Str)) :=
  if job.updatedInts.all (fitsInt 64) then some (updateRows (toRow job) rows) else none

/-- `_parse_dt(value)`. -/
def parseDt (value : Option Str) : Except PyError (Option DateTime) :=
  match value with
  | none | some [] => .ok none
  | some text => (fromisoformat text).map some

/-- `_from_row(row)`, when `datetime.now(tz=UTC)` is `now`. -/
def fromRow (now : DateTime) (row : JobRecord Str) : Except PyError (JobRecord DateTime) := do
  let createdAt ← parseDt (some row.createdAt)
  let startedAt ← parseDt row.startedAt
  let finishedAt ← parseDt row.finishedAt
  return { row with
    createdAt := createdAt.getD now, startedAt := startedAt, finishedAt := finishedAt }

/-- `get(job_id)`. -/
def get (now : DateTime) (jobId : Str) (rows : List (JobRecord Str)) :
    Except PyError (Option (JobRecord DateTime)) :=
  match findRow jobId rows with
  | none => .ok none
  | some row => (fromRow now row).map some

/-- `LIMIT ?`: a negative limit is no limit. -/
def limitOf (limit : ℤ) : Option ℕ := if limit < 0 then none else some limit.toNat

/-- `list_recent(limit)` returns or raises a result, after `ORDER BY created_at DESC LIMIT ?`. -/
def ListRecent (now : DateTime) (limit : ℤ) (rows : List (JobRecord Str))
    (result : Except PyError (List (JobRecord DateTime))) : Prop :=
  if fitsInt 64 limit then
    ∃ listed, Listing JobRecord.createdAt (limitOf limit) rows listed ∧
      result = listed.mapM (fromRow now)
  else result = .error ⟨.exception, "Python int too large to convert to SQLite INTEGER".toList⟩

end SqliteJobRepository

namespace PostgresJobRepository

/-- The offset of a time that PostgreSQL reads: less than 16 hours, in whole seconds. -/
def acceptsOffset (value : DateTime) : Bool :=
  value.utcoffset % 1000000 = 0 ∧ value.utcoffset.natAbs < 57600000000

/-- PostgreSQL takes the parameters of a statement. -/
def accepts (ints : List ℤ) (texts : List Str) (times : List DateTime) : Bool :=
  ints.all (fitsInt 32) && texts.all (fun text => text.all fun c => c.toNat ≠ 0) &&
    times.all acceptsOffset

/-- `_to_row(job)`, as the columns hold it. -/
def toRow (job : JobRecord DateTime) : JobRecord Timestamp := job.map fun value => value.instant

/-- `create(job)`; `none` if it raises. -/
def create (job : JobRecord DateTime) (rows : List (JobRecord Timestamp)) :
    Option (List (JobRecord Timestamp)) :=
  if accepts job.insertedInts job.insertedTexts job.insertedTimes then insertRow (toRow job) rows
  else none

/-- `update(job)`; `none` if it raises, whether or not there is such a row. -/
def update (job : JobRecord DateTime) (rows : List (JobRecord Timestamp)) :
    Option (List (JobRecord Timestamp)) :=
  if accepts job.updatedInts job.updatedTexts job.updatedTimes then
    some (updateRows (toRow job) rows)
  else none

/-- The end of the year 9999. -/
def maxInstant : Timestamp := 3652059 * 86400000000

/-- The times of a row can be read: they are in the years 1 to 9999 in UTC. -/
def readable (row : JobRecord Timestamp) : Bool :=
  row.insertedTimes.all fun time => 0 ≤ time && time < maxInstant

/-- `_from_row(row)`. -/
def fromRow (row : JobRecord Timestamp) : Except PyError (JobRecord Timestamp) :=
  if readable row then .ok row else .error ⟨.exception, "timestamp out of range".toList⟩

/-- `get(job_id)`. -/
def get (jobId : Str) (rows : List (JobRecord Timestamp)) :
    Except PyError (Option (JobRecord Timestamp)) :=
  if accepts [] [jobId] [] then
    match findRow jobId rows with
    | none => .ok none
    | some row => (fromRow row).map some
  else .error ⟨.exception, "PostgreSQL text fields cannot contain NUL (0x00) bytes".toList⟩

/-- `list_recent(limit)` returns or raises a result, after `ORDER BY created_at DESC LIMIT %s`. -/
def ListRecent (limit : ℤ) (rows : List (JobRecord Timestamp))
    (result : Except PyError (List (JobRecord Timestamp))) : Prop :=
  if fitsInt 64 limit then
    if limit < 0 then result = .error ⟨.exception, "LIMIT must not be negative".toList⟩
    else
      ∃ listed, Listing JobRecord.createdAt (some limit.toNat) rows listed ∧
        result = listed.mapM fromRow
  else result = .error ⟨.exception, "bigint out of range".toList⟩

end PostgresJobRepository

/-! ### The repositories as components -/

/-- A call of a repository. -/
inductive JobsCall
  | create (job : JobRecord DateTime)
  | update (job : JobRecord DateTime)
  | get (jobId : Str)
  | listRecent (limit : ℤ)

/-- What a caller sees of a result, with times as instants. -/
inductive JobsAnswer
  | raised
  | job (job : JobRecord Timestamp)
  | found (job : Option (JobRecord Timestamp))
  | listed (jobs : List (JobRecord Timestamp))
  deriving DecidableEq

namespace JobsAnswer

variable {τ : Type} (instant : τ → Timestamp)

/-- The answer of `create` and `update`: the job that was passed. -/
def ofWrite {rows : Type} (job : JobRecord DateTime) : Option rows → JobsAnswer
  | none => raised
  | some _ => .job (job.map fun value => value.instant)

def ofGet : Except PyError (Option (JobRecord τ)) → JobsAnswer
  | .error _ => raised
  | .ok row => found (row.map (JobRecord.map instant))

def ofList : Except PyError (List (JobRecord τ)) → JobsAnswer
  | .error _ => raised
  | .ok rows => listed (rows.map (JobRecord.map instant))

end JobsAnswer

/-- `SqliteJobRepository`. -/
def sqliteJobRepository : Component JobsCall JobsAnswer (List (JobRecord Str)) where
  step
    | .create job, rows => (SqliteJobRepository.create job rows).getD rows
    | .update job, rows => (SqliteJobRepository.update job rows).getD rows
    | .get _, rows => rows
    | .listRecent _, rows => rows
  answer
    | .create job, rows, answer =>
      answer = JobsAnswer.ofWrite job (SqliteJobRepository.create job rows)
    | .update job, rows, answer =>
      answer = JobsAnswer.ofWrite job (SqliteJobRepository.update job rows)
    | .get jobId, rows, answer => ∃ now,
      answer = JobsAnswer.ofGet (fun value => value.instant)
        (SqliteJobRepository.get now jobId rows)
    | .listRecent limit, rows, answer => ∃ now result,
      SqliteJobRepository.ListRecent now limit rows result ∧
        answer = JobsAnswer.ofList (fun value => value.instant) result

/-- `PostgresJobRepository`. -/
def postgresJobRepository : Component JobsCall JobsAnswer (List (JobRecord Timestamp)) where
  step
    | .create job, rows => (PostgresJobRepository.create job rows).getD rows
    | .update job, rows => (PostgresJobRepository.update job rows).getD rows
    | .get _, rows => rows
    | .listRecent _, rows => rows
  answer
    | .create job, rows, answer =>
      answer = JobsAnswer.ofWrite job (PostgresJobRepository.create job rows)
    | .update job, rows, answer =>
      answer = JobsAnswer.ofWrite job (PostgresJobRepository.update job rows)
    | .get jobId, rows, answer =>
      answer = JobsAnswer.ofGet id (PostgresJobRepository.get jobId rows)
    | .listRecent limit, rows, answer => ∃ result,
      PostgresJobRepository.ListRecent limit rows result ∧
        answer = JobsAnswer.ofList id result

end MarketplacePipeline
