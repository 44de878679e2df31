import MarketplacePipeline.Jobs.JobTable
import Mathlib.Algebra.BigOperators.Group.Finset.Piecewise
import Mathlib.Algebra.Order.Group.Multiset
import Mathlib.Data.Fintype.Defs
import Mathlib.Tactic.Abel

/-!
# The job table by status

`idsWith status t` are the ids of the rows with a status.  `create` adds one id to one status, and
`update` moves one id from the status of its row to that of the job.
-/

namespace MarketplacePipeline

/-- The id, if the status is the one looked for. -/
def tag (wanted status : JobStatus) (jobId : Str) : Multiset Str :=
  if status = wanted then {jobId} else 0

instance : Fintype JobStatus where
  elems := {.pending, .running, .completed, .failed}
  complete status := by cases status <;> simp

theorem sum_tag (status : JobStatus) (jobId : Str) :
    ∑ wanted, tag wanted status jobId = {jobId} := by
  unfold tag
  rw [Finset.sum_ite_eq, if_pos (Finset.mem_univ status)]

theorem mem_tag {wanted status : JobStatus} {jobId id : Str} :
    id ∈ tag wanted status jobId ↔ status = wanted ∧ id = jobId := by
  unfold tag
  split_ifs with h <;> simp [h]

namespace JobTable

/-- The ids of the rows. -/
def ids (t : JobTable) : Multiset Str := (t.rows.map PipelineJob.id : List Str)

/-- The ids of the rows with a status. -/
def idsWith (status : JobStatus) (t : JobTable) : Multiset Str :=
  ((t.rows.filter fun row => row.status = status).map PipelineJob.id : List Str)

theorem nodup_ids (t : JobTable) : t.ids.Nodup := t.nodup

theorem card_ids (t : JobTable) : t.ids.card = t.rows.length := by
  simp [ids]

theorem idsWith_cons (status : JobStatus) (row : PipelineJob) (rows : List PipelineJob) :
    (((row :: rows).filter fun row => row.status = status).map PipelineJob.id : Multiset Str) =
      tag status row.status row.id +
        ((rows.filter fun row => row.status = status).map PipelineJob.id : List Str) := by
  unfold tag
  rw [List.filter_cons]
  by_cases h : row.status = status
  · simp [h]
  · simp [h]

/-- Every row has one status. -/
theorem ids_eq_sum (t : JobTable) : t.ids = ∑ status, t.idsWith status := by
  unfold ids idsWith
  induction t.rows with
  | nil => simp
  | cons row rows ih =>
    simp only [idsWith_cons, Finset.sum_add_distrib, sum_tag]
    rw [List.map_cons, ← Multiset.cons_coe, ← Multiset.singleton_add, ih]

theorem length_rows (t : JobTable) : t.rows.length = (t.idsWith .pending).card +
    (t.idsWith .running).card + (t.idsWith .completed).card + (t.idsWith .failed).card := by
  have hsum : ∀ f : JobStatus → Multiset Str,
      ∑ status, f status = f .pending + f .running + f .completed + f .failed := by
    intro f
    show ∑ status ∈ {.pending, .running, .completed, .failed}, f status = _
    rw [Finset.sum_insert (by decide), Finset.sum_insert (by decide), Finset.sum_pair (by decide)]
    abel
  rw [← card_ids, ids_eq_sum, hsum]
  simp only [Multiset.card_add]

/-- A row that is found divides the table into the rows before it and those after it. -/
theorem exists_rows {t : JobTable} {jobId : Str} {row : PipelineJob} (h : t.get jobId = some row) :
    ∃ before after, t.rows = before ++ row :: after ∧ row.id = jobId ∧
      ∀ other ∈ before ++ after, other.id ≠ jobId := by
  have hid := id_of_get h
  obtain ⟨-, before, after, hrows, -⟩ := List.find?_eq_some_iff_append.mp h
  refine ⟨before, after, hrows, hid, fun other hother heq => ?_⟩
  have hnodup := t.nodup
  rw [hrows, List.map_append, List.map_cons, List.nodup_middle] at hnodup
  apply (List.nodup_cons.mp hnodup).1
  rw [← List.map_append, hid, ← heq]
  exact List.mem_map_of_mem hother

theorem mem_idsWith {t : JobTable} {status : JobStatus} {jobId : Str} :
    jobId ∈ t.idsWith status ↔ ∃ row, t.get jobId = some row ∧ row.status = status := by
  constructor
  · intro h
    obtain ⟨row, hrow, hid⟩ := List.mem_map.mp (Multiset.mem_coe.mp h)
    obtain ⟨hmem, hstatus⟩ := List.mem_filter.mp hrow
    cases hget : t.get jobId with
    | none => exact absurd (List.mem_map.mpr ⟨row, hmem, hid⟩) (get_eq_none_iff.mp hget)
    | some found =>
      obtain ⟨before, after, hrows, -, hothers⟩ := exists_rows hget
      have heq : row = found := by
        rw [hrows] at hmem
        by_contra hne
        apply hothers row _ hid
        simp only [List.mem_append, List.mem_cons] at hmem ⊢
        tauto
      exact ⟨found, rfl, by rw [← heq]; simpa using hstatus⟩
  · rintro ⟨row, hget, hstatus⟩
    have hmem : row ∈ t.rows := List.mem_of_find?_eq_some hget
    have hid := id_of_get hget
    exact Multiset.mem_coe.mpr (List.mem_map.mpr ⟨row, List.mem_filter.mpr
      ⟨hmem, by simpa using hstatus⟩, hid⟩)

theorem mem_ids_of_mem_idsWith {t : JobTable} {status : JobStatus} {jobId : Str}
    (h : jobId ∈ t.idsWith status) : jobId ∈ t.ids := by
  obtain ⟨row, hrow, hid⟩ := List.mem_map.mp (Multiset.mem_coe.mp h)
  exact Multiset.mem_coe.mpr (List.mem_map.mpr ⟨row, List.mem_of_mem_filter hrow, hid⟩)

theorem idsWith_create {t t' : JobTable} {job : PipelineJob} (h : t.create job = some t')
    (status : JobStatus) : t'.idsWith status = t.idsWith status + tag status job.status job.id := by
  rw [create] at h
  split_ifs at h
  obtain rfl := Option.some.inj h
  show (((t.rows ++ [job]).filter _).map PipelineJob.id : Multiset Str) = _
  rw [List.filter_append, List.map_append, ← Multiset.coe_add]
  have hjob := idsWith_cons status job []
  rw [List.filter_nil, List.map_nil, Multiset.coe_nil, add_zero] at hjob
  rw [hjob]
  rfl

/-- The update of a row moves its id to the status of the job. -/
theorem idsWith_update {t : JobTable} {job row : PipelineJob} (h : t.get job.id = some row)
    (status : JobStatus) :
    (t.update job).idsWith status + tag status row.status job.id =
      t.idsWith status + tag status job.status job.id := by
  obtain ⟨before, after, hrows, hid, hothers⟩ := exists_rows h
  have hkeep : ∀ rows : List PipelineJob, (∀ other ∈ rows, other ∈ before ++ after) →
      rows.map (fun other => if other.id = job.id then other.overwrite job else other) = rows := by
    intro rows hmem
    have hsame : ∀ other ∈ rows,
        (if other.id = job.id then other.overwrite job else other) = id other := by
      intro other hother
      rw [if_neg (hothers other (hmem other hother)), id]
    rw [List.map_congr_left hsame, List.map_id]
  have hupdated : (t.update job).rows = before ++ row.overwrite job :: after := by
    show t.rows.map _ = _
    rw [hrows, List.map_append, List.map_cons, if_pos hid,
      hkeep before fun _ => List.mem_append_left after,
      hkeep after fun _ => List.mem_append_right before]
  show (((t.update job).rows.filter _).map PipelineJob.id : Multiset Str) + _ =
    ((t.rows.filter _).map PipelineJob.id : List Str) + _
  rw [hupdated, hrows]
  simp only [List.filter_append, List.map_append, ← Multiset.coe_add, idsWith_cons]
  rw [PipelineJob.overwrite_status, PipelineJob.overwrite_id, hid]
  abel

end JobTable

end MarketplacePipeline
