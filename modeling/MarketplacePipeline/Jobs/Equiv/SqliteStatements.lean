import MarketplacePipeline.Algorithm.Latest
import MarketplacePipeline.Jobs.Equiv.JobRepositories
import MarketplacePipeline.Jobs.SqliteStatements

/-!
# The statements of `SqliteJobRepository` keep the jobs

The tuples of `create` and `update` are aligned with the columns of their statements, and
`_from_row` reads every column back (`newRow_toRow`, `setRow_updateParams`, `fromRow_rowOf`).  So
the statements do what `SqliteJobRepository` does to records, and after any calls `get` returns the
job that was created under an id with what the latest update of it changed (`keeps_jobs`).
-/

namespace MarketplacePipeline.SqliteStatements

open Latest Schedule

/-! ### Rows of jobs -/

/-- The row of a job whose times are texts. -/
def rowOf (record : JobRecord Str) : SqliteRow
  | .id => some (.text record.id)
  | .status => some (.text record.status.value)
  | .createdAt => some (.text record.createdAt)
  | .startedAt => record.startedAt.map .text
  | .finishedAt => record.finishedAt.map .text
  | .collectionTarget => some (.integer record.collectionTarget)
  | .collectedCount => record.collectedCount.map .integer
  | .classifiedCount => record.classifiedCount.map .integer
  | .crmTasksCount => record.crmTasksCount.map .integer
  | .outputPath => record.outputPath.map .text
  | .errorMessage => record.errorMessage.map .text
  | .correlationId => record.correlationId.map .text

section Statements

variable {τ : Type} (iso : IsoFormat τ) (job : JobRecord τ)

/-- The tuple of `_to_row` is aligned with the columns of the `INSERT`. -/
theorem newRow_toRow :
    Sql.newRow insertColumns (toRow iso job) = rowOf (job.map iso.isoformat) := by
  funext c
  cases c <;> rfl

/-- The tuple of `update` is aligned with the columns of the `UPDATE`. -/
theorem setRow_updateParams (record : JobRecord Str) :
    Sql.setRow updateColumns (updateParams iso job) (rowOf record) =
      rowOf (record.overwrite (job.map iso.isoformat)) := by
  funext c
  cases c <;> rfl

@[simp] theorem bindsValue_text (text : Str) : bindsValue (some (.text text)) = true := rfl

@[simp] theorem bindsValue_integer (n : ℤ) : bindsValue (some (.integer n)) = fitsInt 64 n := rfl

@[simp] theorem bindsValue_map_text (text : Option Str) : bindsValue (text.map .text) = true := by
  cases text <;> rfl

@[simp] theorem bindsValue_map_integer (n : Option ℤ) :
    bindsValue (n.map .integer) = n.toList.all (fitsInt 64) := by
  cases n <;> simp [bindsValue]

/-- Of the parameters only integers can be refused. -/
theorem binds_toRow : binds (toRow iso job) = job.insertedInts.all (fitsInt 64) := by
  simp [binds, toRow, JobRecord.insertedInts, JobRecord.updatedInts]

theorem binds_updateParams :
    binds (updateParams iso job) = job.updatedInts.all (fitsInt 64) := by
  simp [binds, updateParams, JobRecord.updatedInts]

theorem admits_rowOf (record : JobRecord Str) : jobsSchema.admits (rowOf record) = true := rfl

/-- The condition `id = ?`. -/
theorem equals_id (jobId : Str) (record : JobRecord Str) :
    Sql.equals .id (some (.text jobId)) (rowOf record) = decide (record.id = jobId) := by
  simp [Sql.equals, rowOf]

/-! ### Statements on records -/

theorem create_map (records : List (JobRecord Str)) : create iso job (records.map rowOf) =
    if job.insertedInts.all (fitsInt 64) then
      (insertRow (job.map iso.isoformat) records).map (List.map rowOf)
    else none := by
  have hlength : insertColumns.length = (toRow iso job).length := rfl
  have hinsert := Sql.insert_map hlength (newRow_toRow iso job) (admits_rowOf _) records
  unfold create
  rw [binds_toRow, hinsert]
  unfold insertRow
  simp only [jobsSchema, rowOf, equals_id]
  split_ifs <;> rfl

theorem update_map (records : List (JobRecord Str)) : update iso job (records.map rowOf) =
    if job.updatedInts.all (fitsInt 64) then
      some ((updateRows (job.map iso.isoformat) records).map rowOf)
    else none := by
  have hlength : (updateParams iso job).length = updateColumns.length + 1 := rfl
  have hid : (updateParams iso job)[updateColumns.length]?.join = some (.text job.id) := rfl
  have hupdate :=
    Sql.update_map (k := .id) hlength (setRow_updateParams iso job) admits_rowOf records
  rw [hid] at hupdate
  unfold update
  rw [binds_updateParams, hupdate]
  simp only [equals_id, decide_eq_true_eq]
  rfl

theorem select_map (jobId : Str) (records : List (JobRecord Str)) :
    Sql.select .id (some (.text jobId)) (records.map rowOf) =
      (findRow jobId records).map rowOf := by
  rw [Sql.select_map]
  simp only [equals_id]
  rfl

@[simp] theorem textField_text (text : Str) :
    textField (some (.text text)) = .ok (some text) := rfl

@[simp] theorem textField_map (text : Option Str) : textField (text.map .text) = .ok text := by
  cases text <;> rfl

@[simp] theorem intField_integer (n : ℤ) : intField (some (.integer n)) = .ok (some n) := rfl

@[simp] theorem intField_map (n : Option ℤ) : intField (n.map .integer) = .ok n := by
  cases n <;> rfl

@[simp] theorem ofValue_value (status : JobStatus) :
    JobStatus.ofValue (some (.text status.value)) = .ok status := by
  cases status <;> rfl

theorem parseDt_isoformat (time : τ) :
    parseDt iso (some (.text (iso.isoformat time))) = .ok (some time) := by
  unfold parseDt
  split
  · rename_i heq
    cases heq
  · rename_i heq
    have hnil := SqliteValue.text.inj (Option.some.inj heq)
    exact absurd hnil (iso.isoformat_ne_nil time)
  · rename_i text _ heq
    rw [← SqliteValue.text.inj (Option.some.inj heq), iso.fromisoformat_isoformat]
    rfl
  · rename_i heq
    cases heq

theorem parseDt_map (value : Option τ) :
    parseDt iso ((value.map iso.isoformat).map .text) = .ok value := by
  cases value with
  | none => rfl
  | some time => exact parseDt_isoformat iso time

/-- `_from_row` reads back what `_to_row` wrote. -/
theorem fromRow_rowOf (now : τ) : fromRow iso now (rowOf (job.map iso.isoformat)) = .ok job := by
  unfold fromRow JobRecord.map
  simp only [rowOf, textField_text, textField_map, ofValue_value, parseDt_isoformat, parseDt_map,
    intField_integer, intField_map]
  rfl

end Statements

/-! ### The repository on records -/

/-- With aware datetimes, the statements do to the rows of records what `SqliteJobRepository.create`
does to the records. -/
theorem create_eq (job : JobRecord DateTime) (records : List (JobRecord Str)) :
    create dateTimeFormat job (records.map rowOf) =
      (SqliteJobRepository.create job records).map (List.map rowOf) := by
  rw [create_map]
  unfold SqliteJobRepository.create
  split_ifs <;> rfl

theorem update_eq (job : JobRecord DateTime) (records : List (JobRecord Str)) :
    update dateTimeFormat job (records.map rowOf) =
      (SqliteJobRepository.update job records).map (List.map rowOf) := by
  rw [update_map]
  unfold SqliteJobRepository.update
  split_ifs <;> rfl

theorem parseDt_eq (value : Option Str) :
    parseDt dateTimeFormat (value.map .text) = SqliteJobRepository.parseDt value := by
  cases value with
  | none => rfl
  | some text => cases text <;> rfl

theorem fromRow_eq (now : DateTime) (record : JobRecord Str) :
    fromRow dateTimeFormat now (rowOf record) = SqliteJobRepository.fromRow now record := by
  have hcreatedAt : parseDt dateTimeFormat (some (.text record.createdAt)) =
      SqliteJobRepository.parseDt (some record.createdAt) := parseDt_eq (some record.createdAt)
  unfold fromRow SqliteJobRepository.fromRow
  simp only [rowOf, textField_text, textField_map, ofValue_value, hcreatedAt, parseDt_eq,
    intField_integer, intField_map]
  rfl

theorem get_eq (now : DateTime) (jobId : Str) (records : List (JobRecord Str)) :
    get dateTimeFormat now jobId (records.map rowOf) =
      SqliteJobRepository.get now jobId records := by
  unfold get SqliteJobRepository.get
  rw [select_map]
  cases findRow jobId records with
  | none => rfl
  | some record =>
    rw [Option.map_some]
    dsimp only
    rw [fromRow_eq]

/-! ### The jobs that are stored -/

section Store

variable {τ : Type} {iso : IsoFormat τ} {job job' row : JobRecord τ} {jobId : Str}
  {stored : List (JobRecord τ)} {calls pre post : List (JobCall τ)}

/-- `sqlite3` accepts the integers of a call. -/
def accepted : JobCall τ → Bool
  | .create job => job.insertedInts.all (fitsInt 64)
  | .update job => job.updatedInts.all (fitsInt 64)
  | .get _ => true

/-- The jobs that are stored after a call that is accepted. -/
def store : JobCall τ → List (JobRecord τ) → List (JobRecord τ)
  | .create job, stored => (insertRow job stored).getD stored
  | .update job, stored => updateRows job stored
  | .get _, stored => stored

variable (iso) in
/-- The row of a job. -/
def rowOfJob (job : JobRecord τ) : SqliteRow := rowOf (job.map iso.isoformat)

theorem map_rowOfJob (stored : List (JobRecord τ)) :
    stored.map (rowOfJob iso) = (stored.map (JobRecord.map iso.isoformat)).map rowOf := by
  rw [List.map_map]
  rfl

/-- A call changes the rows as it changes the jobs. -/
theorem step_map (call : JobCall τ) (stored : List (JobRecord τ)) :
    step iso call (stored.map (rowOfJob iso)) =
      (if accepted call then store call stored else stored).map (rowOfJob iso) := by
  cases call with
  | create job =>
    have hcreate : create iso job (stored.map (rowOfJob iso)) = _ :=
      (congrArg _ (map_rowOfJob stored)).trans (create_map iso job _)
    dsimp only [step, store]
    rw [hcreate, map_insertRow]
    by_cases hfits : accepted (.create job) = true
    · have hints : job.insertedInts.all (fitsInt 64) = true := hfits
      rw [if_pos hfits, if_pos hints]
      cases insertRow job stored with
      | none => rfl
      | some stored' => exact (map_rowOfJob stored').symm
    · have hints : ¬ job.insertedInts.all (fitsInt 64) = true := hfits
      rw [if_neg hfits, if_neg hints, Option.getD_none]
  | update job =>
    have hupdate : update iso job (stored.map (rowOfJob iso)) = _ :=
      (congrArg _ (map_rowOfJob stored)).trans (update_map iso job _)
    dsimp only [step, store]
    rw [hupdate, map_updateRows]
    by_cases hfits : accepted (.update job) = true
    · have hints : job.updatedInts.all (fitsInt 64) = true := hfits
      rw [if_pos hfits, if_pos hints, Option.getD_some, map_rowOfJob]
    · have hints : ¬ job.updatedInts.all (fitsInt 64) = true := hfits
      rw [if_neg hfits, if_neg hints, Option.getD_none]
  | get jobId => rfl

theorem get_map (now : τ) (jobId : Str) (stored : List (JobRecord τ)) :
    get iso now jobId (stored.map (rowOfJob iso)) = .ok (findRow jobId stored) := by
  unfold get
  rw [map_rowOfJob, select_map, map_findRow]
  cases findRow jobId stored with
  | none => rfl
  | some job =>
    rw [Option.map_some, Option.map_some]
    dsimp only
    rw [fromRow_rowOf]
    rfl

/-- The calls that are not accepted leave no trace. -/
theorem run_step (calls : List (JobCall τ)) (stored : List (JobRecord τ)) :
    run (step iso) (stored.map (rowOfJob iso)) calls =
      (run store stored (calls.filter accepted)).map (rowOfJob iso) := by
  induction calls generalizing stored with
  | nil => rfl
  | cons call calls ih =>
    rw [run_cons, step_map, ih, List.filter_cons]
    split_ifs <;> rfl

/-! ### The history of a job -/

/-- The ids under which jobs are created. -/
def createdIds (calls : List (JobCall τ)) : List Str :=
  calls.filterMap fun
    | .create job => some job.id
    | _ => none

def updates (calls : List (JobCall τ)) : List (JobRecord τ) :=
  calls.filterMap fun
    | .update job => some job
    | _ => none

/-- The latest update of a job. -/
def latestUpdate (jobId : Str) (calls : List (JobCall τ)) : Option (JobRecord τ) :=
  (updates calls).findRev? fun job => job.id = jobId

/-- The job that was created, with what the latest update says of it. -/
def kept (job latest : JobRecord τ) : JobRecord τ :=
  { latest with
    id := job.id
    createdAt := job.createdAt
    collectionTarget := job.collectionTarget
    correlationId := job.correlationId }

theorem findRow_insertRow (jobId : Str) (job : JobRecord τ) (stored : List (JobRecord τ)) :
    findRow jobId ((insertRow job stored).getD stored) =
      (findRow jobId stored).or (if job.id = jobId then some job else none) := by
  unfold insertRow
  split_ifs with htaken hid hid
  · -- the id is taken, so that there is a row with it
    obtain ⟨other, hother, hotherId⟩ := List.any_eq_true.mp htaken
    have hsome : (findRow jobId stored).isSome = true :=
      List.find?_isSome.mpr ⟨other, hother, by rw [← hid]; exact hotherId⟩
    obtain ⟨row, hrow⟩ := Option.isSome_iff_exists.mp hsome
    rw [Option.getD_none, hrow, Option.some_or]
  · rw [Option.getD_none, Option.or_none]
  · rw [Option.getD_some, findRow, List.find?_append]
    simp [findRow, hid]
  · rw [Option.getD_some, findRow, List.find?_append]
    simp [findRow, hid]

theorem findRow_updateRows (jobId : Str) (job : JobRecord τ) (stored : List (JobRecord τ)) :
    findRow jobId (updateRows job stored) =
      if jobId = job.id then (findRow jobId stored).map (·.overwrite job)
      else findRow jobId stored :=
  Sql.find?_change JobRecord.id (·.overwrite job) (fun _ => rfl) jobId job.id stored

theorem updateRows_of_unknown (hunknown : findRow job.id stored = none) :
    updateRows job stored = stored := by
  have hids : ∀ row ∈ stored, row.id ≠ job.id := by simpa [findRow] using hunknown
  have hrows : updateRows job stored = stored.map id :=
    List.map_congr_left fun row hrow => if_neg (hids row hrow)
  rw [hrows, List.map_id]

/-- Nothing is found under an id that is not created. -/
theorem findRow_run_of_not_created (hstored : findRow jobId stored = none)
    (hcalls : jobId ∉ createdIds calls) : findRow jobId (run store stored calls) = none := by
  induction calls generalizing stored with
  | nil => exact hstored
  | cons call calls ih =>
    cases call with
    | create job =>
      obtain ⟨hne, hrest⟩ : jobId ≠ job.id ∧ jobId ∉ createdIds calls := by
        simpa [createdIds] using hcalls
      -- the new row has another id
      refine ih ?_ hrest
      rw [store, findRow_insertRow, hstored, if_neg (Ne.symm hne)]
      rfl
    | update job =>
      refine ih ?_ hcalls
      rw [store, findRow_updateRows, hstored, Option.map_none, ite_self]
    | get jobId' => exact ih hstored hcalls

/-- After a job was created, what is found is the job with its latest update. -/
theorem findRow_run_of_created (hstored : findRow job.id stored = some job)
    (calls : List (JobCall τ)) :
    findRow job.id (run store stored calls) =
      some (kept job ((latestUpdate job.id calls).getD job)) := by
  -- from the right: the last call is the latest update, or leaves the one before it
  induction calls using List.reverseRecOn with
  | nil => exact hstored
  | append_singleton calls call ih =>
    rw [run_append, run_cons, run_nil]
    cases call with
    | create job' =>
      have hlatest : latestUpdate job.id (calls ++ [.create job']) = latestUpdate job.id calls := by
        simp [latestUpdate, updates]
      rw [hlatest, store, findRow_insertRow, ih, Option.some_or]
    | update job' =>
      have hlatest : latestUpdate job.id (calls ++ [.update job']) =
          if job.id = job'.id then some job' else latestUpdate job.id calls := by
        have hconcat : updates (calls ++ [.update job']) = updates calls ++ [job'] := by
          simp [updates]
        rw [latestUpdate, hconcat, findRev?_concat, ← latestUpdate]
        simp only [decide_eq_true_eq, eq_comm (a := job'.id)]
      rw [hlatest, store, findRow_updateRows, ih, Option.map_some]
      split_ifs <;> rfl
    | get jobId' =>
      have hlatest : latestUpdate job.id (calls ++ [.get jobId']) = latestUpdate job.id calls := by
        simp [latestUpdate, updates]
      rw [hlatest]
      exact ih

end Store

/-- After some calls, `get` returns what those of them that count say: nothing under an id that is
not created, and from its creation on the created job with its latest update.  An update changes no
other job, and nothing at all if its job is unknown. -/
structure KeepsJobs {τ : Type} (iso : IsoFormat τ) (calls counted : List (JobCall τ)) : Prop where
  unknown : ∀ now jobId, jobId ∉ createdIds counted →
    get iso now jobId (run (step iso) [] calls) = .ok none
  known : ∀ now pre job post, counted = pre ++ .create job :: post → job.id ∉ createdIds pre →
    get iso now job.id (run (step iso) [] calls) =
      .ok (some (kept job ((latestUpdate job.id post).getD job)))
  update_other : ∀ now job jobId, jobId ≠ job.id →
    get iso now jobId (step iso (.update job) (run (step iso) [] calls)) =
      get iso now jobId (run (step iso) [] calls)
  update_unknown : ∀ job, job.id ∉ createdIds counted →
    step iso (.update job) (run (step iso) [] calls) = run (step iso) [] calls

/-- **The repository keeps the jobs**, over any calls; those with an integer that does not fit 64
bits do not count. -/
theorem keeps_jobs {τ : Type} (iso : IsoFormat τ) (calls : List (JobCall τ)) :
    KeepsJobs iso calls (calls.filter accepted) := by
  have hrows : run (step iso) [] calls =
      (run store [] (calls.filter accepted)).map (rowOfJob iso) := run_step calls []
  constructor
  case unknown =>
    intro now jobId hjobId
    rw [hrows, get_map, findRow_run_of_not_created rfl hjobId]
  case known =>
    intro now pre job post hcounted hnew
    -- up to its creation the id is unknown, so that the row is inserted
    have hfirst : findRow job.id (run store [] (pre ++ [.create job])) = some job := by
      rw [run_append, run_cons, run_nil, store, findRow_insertRow,
        findRow_run_of_not_created rfl hnew, if_pos rfl]
      rfl
    rw [hrows, get_map, hcounted, ← List.singleton_append, ← List.append_assoc, run_append,
      findRow_run_of_created hfirst]
  case update_other =>
    intro now job jobId hne
    rw [hrows, step_map, get_map, get_map]
    split_ifs
    · rw [store, findRow_updateRows, if_neg hne]
    · rfl
  case update_unknown =>
    intro job hjob
    rw [hrows, step_map, store, updateRows_of_unknown (findRow_run_of_not_created rfl hjob)]
    split_ifs <;> rfl

/-- A job with an integer of 65 bits. -/
def largeJob : JobRecord DateTime where
  id := ['a']
  createdAt := default
  collectionTarget := 2 ^ 63

/-- A job with an integer that does not fit 64 bits is not created. -/
theorem not_keeps_jobs_large : ¬ ∀ calls, KeepsJobs dateTimeFormat calls calls := by
  intro hall
  have hknown := (hall [.create largeJob]).known default [] largeJob [] rfl (by simp [createdIds])
  cases hknown

end MarketplacePipeline.SqliteStatements
