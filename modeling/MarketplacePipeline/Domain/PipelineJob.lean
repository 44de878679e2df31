import MarketplacePipeline.Domain.Product

/-!
# Pipeline jobs

`PipelineJob` is a row of the job table: some columns never change after `create`, the others
(`overwrite`) are replaced as a whole by every `update`.
-/

namespace MarketplacePipeline

/-- The status of a pipeline job. -/
inductive JobStatus
  | pending
  | running
  | completed
  | failed
  deriving DecidableEq, Repr

namespace JobStatus

/-- The job is over. -/
def isTerminal : JobStatus → Bool
  | .completed | .failed => true
  | .pending | .running => false

/-- The lifecycle `pending → running → completed | failed`. -/
inductive Moves : JobStatus → JobStatus → Prop
  | start : Moves .pending .running
  | complete : Moves .running .completed
  | fail : Moves .running .failed

end JobStatus

/-- A pipeline job.  The defaults are those of a job that `create_job` submits. -/
structure PipelineJob where
  id : Str
  status : JobStatus := .pending
  createdAt : Timestamp
  startedAt : Option Timestamp := none
  finishedAt : Option Timestamp := none
  collectionTarget : Int
  collectedCount : Option Int := none
  classifiedCount : Option Int := none
  crmTasksCount : Option Int := none
  outputPath : Option Str := none
  errorMessage : Option Str := none
  correlationId : Option Str := none
  deriving DecidableEq

namespace PipelineJob

/-- The row after `UPDATE ... WHERE id = job.id` with the values of `job`. -/
def overwrite (row job : PipelineJob) : PipelineJob :=
  { row with
    status := job.status
    startedAt := job.startedAt
    finishedAt := job.finishedAt
    collectedCount := job.collectedCount
    classifiedCount := job.classifiedCount
    crmTasksCount := job.crmTasksCount
    outputPath := job.outputPath
    errorMessage := job.errorMessage }

/-- What a run of the pipeline reports: the three counts, the output path and the error message. -/
def resultFields (job : PipelineJob) :
    Option Int × Option Int × Option Int × Option Str × Option Str :=
  (job.collectedCount, job.classifiedCount, job.crmTasksCount, job.outputPath, job.errorMessage)

@[simp] theorem overwrite_id (row job : PipelineJob) : (row.overwrite job).id = row.id := rfl

@[simp] theorem overwrite_status (row job : PipelineJob) :
    (row.overwrite job).status = job.status := rfl

@[simp] theorem overwrite_resultFields (row job : PipelineJob) :
    (row.overwrite job).resultFields = job.resultFields := rfl

end PipelineJob

end MarketplacePipeline
