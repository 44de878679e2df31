import MarketplacePipeline.Jobs.Equiv.JobRepositories
import MarketplacePipeline.Python.Equiv.DateTime

/-!
# The jobs that are listed first

`SqliteJobRepository.list_recent` leaves the order to SQLite, which compares the texts of the times.
These are in the order of the times where the times are in UTC, so after any calls the newest jobs
are listed, the newest one first (`listRecent_listsNewest`).
-/

namespace MarketplacePipeline

open OrderedPrefix PossibleAnswers Schedule

/-! ### The jobs that were created -/

/-- What no update changes. -/
def JobRecord.key {τ : Type} (job : JobRecord τ) : Str × τ := (job.id, job.createdAt)

/-- The jobs that are passed to `create`, but for those that SQLite does not take. -/
def createdJobs (calls : List JobsCall) : List (JobRecord DateTime) :=
  calls.filterMap fun
    | .create job => if job.insertedInts.all (fitsInt 64) then some job else none
    | _ => none

theorem map_key_updateRows {τ : Type} (job : JobRecord τ) (rows : List (JobRecord τ)) :
    (updateRows job rows).map JobRecord.key = rows.map JobRecord.key :=
  Sql.map_change JobRecord.key (·.overwrite job) (fun _ => rfl) _ rows

theorem createdJobs_create (job : JobRecord DateTime) : createdJobs [.create job] =
    if job.insertedInts.all (fitsInt 64) then [job] else [] := by
  unfold createdJobs
  rw [List.filterMap_cons]
  dsimp only
  split_ifs <;> rfl

theorem insertRow_of_new {τ : Type} {row : JobRecord τ} {rows : List (JobRecord τ)}
    (h : ((rows ++ [row]).map JobRecord.id).Nodup) : insertRow row rows = some (rows ++ [row]) := by
  refine if_neg fun htaken => ?_
  obtain ⟨other, hother, hid⟩ := List.any_eq_true.mp htaken
  rw [List.map_append] at h
  refine List.disjoint_of_nodup_append h (List.mem_map_of_mem hother) ?_
  rw [of_decide_eq_true hid]
  exact List.mem_singleton_self _

/-- A call adds the job that it creates. -/
theorem map_key_storeCall (call : JobsCall) (stored : List (JobRecord DateTime))
    (hdistinct : ((stored ++ createdJobs [call]).map JobRecord.id).Nodup) :
    (storeCall call stored).map JobRecord.key =
      (stored ++ createdJobs [call]).map JobRecord.key := by
  cases call with
  | create job =>
    rw [createdJobs_create] at hdistinct ⊢
    dsimp only [storeCall]
    by_cases hfits : job.insertedInts.all (fitsInt 64) = true
    · rw [if_pos hfits] at hdistinct ⊢
      rw [insertRow_of_new hdistinct, Option.getD_some, if_pos hfits]
    · rw [if_neg hfits, if_neg hfits, List.append_nil]
  | update job =>
    dsimp only [storeCall]
    rw [show createdJobs [.update job] = [] from rfl, List.append_nil]
    split_ifs
    · exact map_key_updateRows job stored
    · rfl
  | get jobId => rw [show createdJobs [.get jobId] = [] from rfl, List.append_nil]; rfl
  | listRecent limit =>
    rw [show createdJobs [.listRecent limit] = [] from rfl, List.append_nil]
    rfl

theorem createdJobs_cons (call : JobsCall) (calls : List JobsCall) :
    createdJobs (call :: calls) = createdJobs [call] ++ createdJobs calls := by
  rw [createdJobs, ← List.singleton_append, List.filterMap_append]
  rfl

theorem map_id_eq_of_map_key_eq {τ : Type} {rows rows' : List (JobRecord τ)}
    (h : rows.map JobRecord.key = rows'.map JobRecord.key) :
    rows.map JobRecord.id = rows'.map JobRecord.id := by
  have hid : ∀ rows : List (JobRecord τ),
      rows.map JobRecord.id = (rows.map JobRecord.key).map Prod.fst := by
    intro rows
    rw [List.map_map]
    rfl
  rw [hid, h, ← hid]

/-- The jobs that are stored are the created ones, with what the updates changed. -/
theorem map_key_run (calls : List JobsCall) (stored : List (JobRecord DateTime))
    (hdistinct : ((stored ++ createdJobs calls).map JobRecord.id).Nodup) :
    (run storeCall stored calls).map JobRecord.key =
      (stored ++ createdJobs calls).map JobRecord.key := by
  -- the keys of the rows never change, and new rows come at the end
  induction calls generalizing stored with
  | nil => rw [run_nil, show createdJobs [] = [] from rfl, List.append_nil]
  | cons call calls ih =>
    rw [createdJobs_cons, ← List.append_assoc] at hdistinct ⊢
    have hfirst := map_key_storeCall call stored (by
      rw [List.map_append] at hdistinct
      exact (List.nodup_append.mp hdistinct).1)
    have hids := map_id_eq_of_map_key_eq hfirst
    rw [run_cons, ih]
    · rw [List.map_append, hfirst, ← List.map_append]
    · rw [List.map_append, hids, ← List.map_append]
      exact hdistinct

/-! ### The listing -/

/-- The first `n` of the stored jobs, newest first. -/
structure ListsNewest (n : ℕ) (stored jobs : List (JobRecord DateTime)) : Prop where
  length : jobs.length = min n stored.length
  sorted : jobs.Pairwise fun a b => b.createdAt.instant ≤ a.createdAt.instant
  /-- No job that is left out is newer than one that is listed. -/
  left_out : ∃ rest, (jobs ++ rest).Perm stored ∧
    ∀ a ∈ jobs, ∀ b ∈ rest, b.createdAt.instant ≤ a.createdAt.instant

theorem ListsNewest.of_listing {n : ℕ} {stored jobs : List (JobRecord DateTime)}
    (hutc : ∀ job ∈ stored, job.createdAt.utcoffset = 0)
    (h : Listing (fun job => job.createdAt.isoformat) (some n) stored jobs) :
    ListsNewest n stored jobs := by
  obtain ⟨hlength, rest, hperm, hsorted⟩ := h.exists_rest
  have hinstants : (jobs ++ rest).Pairwise
      fun a b => b.createdAt.instant ≤ a.createdAt.instant := by
    refine hsorted.imp_of_mem fun {a b} ha hb hle => ?_
    have ha0 := hutc a (hperm.subset ha)
    have hb0 := hutc b (hperm.subset hb)
    exact (isoformat_le_iff_instant_le hb0 ha0).mp hle
  obtain ⟨hjobs, -, hrest⟩ := List.pairwise_append.mp hinstants
  exact ⟨hlength, hjobs, rest, hperm, hrest⟩

/-- The rows of SQLite after some calls. -/
theorem sqliteHolds_run (calls : List JobsCall) :
    SqliteHolds (run storeCall [] calls) (run sqliteJobRepository.step [] calls) := by
  have hinv : ∀ stored rows, SqliteHolds stored rows →
      SqliteHolds (run storeCall stored calls) (run sqliteJobRepository.step rows calls) := by
    induction calls with
    | nil => exact fun stored rows h => h
    | cons call calls ih => exact fun stored rows h => ih _ _ (h.storeCall call)
  exact hinv [] [] ⟨rfl, by simp⟩

/-- After the calls, `list_recent(limit)` returns, and whatever it returns are the newest of the
created jobs. -/
def ListRecentCorrect (calls : List JobsCall) (limit : ℤ) : Prop :=
  (run storeCall [] calls).map JobRecord.key = (createdJobs calls).map JobRecord.key ∧
  (∀ now, ∃ result, SqliteJobRepository.ListRecent now limit
    (run sqliteJobRepository.step [] calls) result) ∧
  ∀ now result, SqliteJobRepository.ListRecent now limit
      (run sqliteJobRepository.step [] calls) result →
    ∃ jobs, result = .ok jobs ∧ ListsNewest limit.toNat (run storeCall [] calls) jobs

/-- **`list_recent` lists the newest jobs first**, where the limit is an integer of SQLite. -/
theorem listRecent_newestFirst (calls : List JobsCall)
    (hdistinct : ((createdJobs calls).map JobRecord.id).Nodup)
    (hutc : ∀ job ∈ createdJobs calls, job.createdAt.utcoffset = 0) (limit : ℤ)
    (hnonneg : 0 ≤ limit) (hlimit : limit < 2 ^ 63) : ListRecentCorrect calls limit := by
  have hkeys := map_key_run calls [] hdistinct
  have hfits : fitsInt 64 limit = true := by
    unfold fitsInt
    rw [decide_eq_true_iff]
    omega
  have hlimitOf : SqliteJobRepository.limitOf limit = some limit.toNat :=
    if_neg (not_lt.mpr hnonneg)
  have hstored : ∀ job ∈ run storeCall [] calls, job.createdAt.utcoffset = 0 := by
    intro job hjob
    have hkey := List.mem_map_of_mem (f := JobRecord.key) hjob
    rw [hkeys] at hkey
    obtain ⟨created, hcreated, heq⟩ := List.mem_map.mp hkey
    rw [← (Prod.mk.inj heq).2]
    exact hutc created hcreated
  have hrows := (sqliteHolds_run calls).1
  refine ⟨hkeys, fun now => ?_, fun now result hresult => ?_⟩
  · obtain ⟨jobs, hjobs⟩ := exists_listing (fun job : JobRecord DateTime => job.createdAt.isoformat)
      (SqliteJobRepository.limitOf limit) (run storeCall [] calls)
    rw [hrows]
    exact ⟨_, (sqlite_listRecent_iff hfits).mpr ⟨jobs, hjobs, rfl⟩⟩
  · rw [hrows, sqlite_listRecent_iff hfits, hlimitOf] at hresult
    obtain ⟨jobs, hlisting, rfl⟩ := hresult
    exact ⟨jobs, rfl, .of_listing hstored hlisting⟩

def jobAt (id : Str) (createdAt : DateTime) : JobRecord DateTime where
  id := id
  createdAt := createdAt
  collectionTarget := 1

/-- Two jobs, the first one without a fraction of a second, and an update. -/
def twoJobs : List JobsCall :=
  [.create (jobAt ['a'] default),
    .create (jobAt ['b'] ⟨{ year := 1, month := 1, day := 1, microsecond := 5 }, by decide⟩),
    .update (jobAt ['a'] default)]

theorem listRecent_newestFirst_twoJobs : ListRecentCorrect twoJobs 1 :=
  listRecent_newestFirst twoJobs (by decide) (by decide) 1 (by decide) (by decide)

/-- SQLite does not take a limit of 2^63. -/
theorem not_listRecent_large : ¬ ListRecentCorrect [] (2 ^ 63) := by
  rintro ⟨-, -, hall⟩
  have hraises : SqliteJobRepository.ListRecent default (2 ^ 63) []
      (.error ⟨.exception, "Python int too large to convert to SQLite INTEGER".toList⟩) := by
    unfold SqliteJobRepository.ListRecent
    rw [if_neg (by decide)]
  obtain ⟨jobs, hjobs, -⟩ := hall default _ hraises
  cases hjobs

end MarketplacePipeline
