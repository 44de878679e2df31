import MarketplacePipeline.Domain.PipelineJob
import MarketplacePipeline.Sql.Table
import Mathlib.Data.List.Nodup

/-!
# The job table

`JobTable` is the content of `pipeline_jobs`: its rows, with pairwise distinct ids since `id` is the
primary key.  `get`, `create` and `update` are the statements of the SQL repositories: `create`
gives `none` where the database refuses the row.
-/

namespace MarketplacePipeline

/-- The rows of `pipeline_jobs`. -/
structure JobTable where
  rows : List PipelineJob
  /-- `id TEXT PRIMARY KEY`. -/
  nodup : (rows.map PipelineJob.id).Nodup

namespace JobTable

/-- The empty table. -/
def empty : JobTable := ⟨[], List.nodup_nil⟩

/-- `SELECT * FROM pipeline_jobs WHERE id = ?`. -/
def get (t : JobTable) (jobId : Str) : Option PipelineJob :=
  t.rows.find? (fun row => row.id = jobId)

theorem nodup_concat {rows : List PipelineJob} {job : PipelineJob}
    (hrows : (rows.map PipelineJob.id).Nodup) (h : job.id ∉ rows.map PipelineJob.id) :
    ((rows ++ [job]).map PipelineJob.id).Nodup := by
  rw [List.map_append, List.map_singleton, ← List.concat_eq_append]
  exact hrows.concat h

/-- `INSERT INTO pipeline_jobs ...`. -/
def create (t : JobTable) (job : PipelineJob) : Option JobTable :=
  if h : job.id ∈ t.rows.map PipelineJob.id then none
  else some ⟨t.rows ++ [job], nodup_concat t.nodup h⟩

/-- `UPDATE pipeline_jobs SET ... WHERE id = ?`. -/
def update (t : JobTable) (job : PipelineJob) : JobTable where
  rows := t.rows.map (fun row => if row.id = job.id then row.overwrite job else row)
  nodup := by
    rw [Sql.map_change PipelineJob.id (·.overwrite job) fun _ => rfl]
    exact t.nodup

@[simp] theorem get_empty (jobId : Str) : empty.get jobId = none := rfl

theorem id_of_get {t : JobTable} {jobId : Str} {row : PipelineJob} (h : t.get jobId = some row) :
    row.id = jobId := by
  simpa using List.find?_some h

theorem get_eq_none_iff {t : JobTable} {jobId : Str} :
    t.get jobId = none ↔ jobId ∉ t.rows.map PipelineJob.id := by
  simp [get]

/-- `create` refuses exactly the ids that are taken. -/
theorem create_isSome_iff {t : JobTable} {job : PipelineJob} :
    (t.create job).isSome ↔ t.get job.id = none := by
  rw [get_eq_none_iff, create]
  split_ifs with h <;> simp [h]

theorem length_create {t t' : JobTable} {job : PipelineJob} (h : t.create job = some t') :
    t'.rows.length = t.rows.length + 1 := by
  rw [create] at h
  split_ifs at h
  obtain rfl := Option.some.inj h
  simp

/-- After `create`, the new row is found and every other lookup is as before. -/
theorem get_create {t t' : JobTable} {job : PipelineJob} (h : t.create job = some t')
    (jobId : Str) : t'.get jobId = if jobId = job.id then some job else t.get jobId := by
  have hnone : t.get job.id = none := create_isSome_iff.mp (by rw [h]; rfl)
  rw [create] at h
  split_ifs at h
  obtain rfl := Option.some.inj h
  show (t.rows ++ [job]).find? (fun row => row.id = jobId) = _
  rw [List.find?_append]
  by_cases hid : jobId = job.id
  · subst hid
    rw [if_pos rfl, show t.rows.find? (fun row => row.id = job.id) = none from hnone]
    simp
  · rw [if_neg hid, get]
    simp [Ne.symm hid]

/-- After `update`, the row with that id has the new values and every other row is as before. -/
theorem get_update (t : JobTable) (job : PipelineJob) (jobId : Str) :
    (t.update job).get jobId =
      if jobId = job.id then (t.get jobId).map (·.overwrite job) else t.get jobId :=
  Sql.find?_change PipelineJob.id (·.overwrite job) (fun _ => rfl) jobId job.id t.rows

end JobTable

end MarketplacePipeline
