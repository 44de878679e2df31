import MarketplacePipeline.Jobs.JobRepositories
import MarketplacePipeline.Sql.Table
import Mathlib.Tactic.NormNum

/-!
# One port, two repositories

Both repositories are compared with an account of the jobs that were stored, as Python objects: the
rows of SQLite are these jobs with their times written down, those of PostgreSQL are the same jobs
with their instants.  Statements commute with such a change of the times, so the repositories answer
alike as long as both databases take what they are given and list it in the same order
(`sqlite_refines_postgres_iff`).
-/

namespace MarketplacePipeline

open OrderedPrefix PossibleAnswers Schedule

/-! ### Statements on rows with other times -/

section Statements

variable {τ τ' : Type} (f : τ → τ') (job : JobRecord τ) (rows : List (JobRecord τ))

theorem map_insertRow : insertRow (job.map f) (rows.map (JobRecord.map f)) =
    (insertRow job rows).map (List.map (JobRecord.map f)) := by
  unfold insertRow
  rw [List.any_map]
  by_cases htaken : (rows.any fun other => other.id = job.id) = true
  · rw [if_pos htaken, if_pos (by exact htaken)]
    rfl
  · rw [if_neg htaken, if_neg (by exact htaken), Option.map_some, List.map_append]
    rfl

theorem map_updateRows : updateRows (job.map f) (rows.map (JobRecord.map f)) =
    (updateRows job rows).map (JobRecord.map f) := by
  unfold updateRows
  rw [List.map_map, List.map_map]
  apply List.map_congr_left
  intro row _
  by_cases hid : row.id = job.id
  · simp only [Function.comp_apply, if_pos hid]
    exact if_pos hid
  · simp only [Function.comp_apply, if_neg hid]
    exact if_neg hid

theorem map_findRow (jobId : Str) : findRow jobId (rows.map (JobRecord.map f)) =
    (findRow jobId rows).map (JobRecord.map f) := by
  unfold findRow
  rw [List.find?_map]
  rfl

theorem JobRecord.map_self (job : JobRecord τ) : (job.map fun time => time) = job := by
  cases job
  simp [JobRecord.map]

theorem map_id_updateRows : (updateRows job rows).map JobRecord.id = rows.map JobRecord.id :=
  Sql.map_change JobRecord.id (·.overwrite job) (fun _ => rfl) _ rows

end Statements

/-! ### The account -/

/-- The jobs that are stored after a call, as SQLite stores them. -/
def storeCall : JobsCall → List (JobRecord DateTime) → List (JobRecord DateTime)
  | .create job, stored =>
    if job.insertedInts.all (fitsInt 64) then (insertRow job stored).getD stored else stored
  | .update job, stored =>
    if job.updatedInts.all (fitsInt 64) then updateRows job stored else stored
  | .get _, stored => stored
  | .listRecent _, stored => stored

/-- The call can be answered alike, when these jobs are stored. -/
def AnswersAgree : JobsCall → List (JobRecord DateTime) → Prop
  | .create job, stored =>
    job.insertedInts.all (fitsInt 64) = true → (∀ other ∈ stored, other.id ≠ job.id) →
      PostgresJobRepository.accepts job.insertedInts job.insertedTexts job.insertedTimes = true
  | .update job, _ =>
    job.updatedInts.all (fitsInt 64) = true →
      PostgresJobRepository.accepts job.updatedInts job.updatedTexts job.updatedTimes = true
  | .get jobId, stored =>
    PostgresJobRepository.accepts [] [jobId] [] = true ∧
      ∀ job ∈ stored, job.id = jobId →
        PostgresJobRepository.readable (PostgresJobRepository.toRow job) = true
  | .listRecent limit, stored =>
    fitsInt 64 limit = true →
      0 ≤ limit ∧
      OrdersAgree (fun job => job.createdAt.isoformat) (fun job => job.createdAt.instant)
        limit.toNat stored ∧
      ∀ job, MayBeListed (fun job => job.createdAt.isoformat) limit.toNat stored job →
        PostgresJobRepository.readable (PostgresJobRepository.toRow job) = true

/-- The rows of SQLite are the stored jobs. -/
def SqliteHolds (stored : List (JobRecord DateTime)) (rows : List (JobRecord Str)) : Prop :=
  rows = stored.map SqliteJobRepository.toRow ∧ (stored.map JobRecord.id).Nodup

/-- The rows of PostgreSQL are the stored jobs. -/
def PostgresHolds (stored : List (JobRecord DateTime)) (rows : List (JobRecord Timestamp)) : Prop :=
  rows = stored.map PostgresJobRepository.toRow

section Account

variable {stored : List (JobRecord DateTime)} {call : JobsCall} {job : JobRecord DateTime}
  {rows : List (JobRecord Str)} {rows' : List (JobRecord Timestamp)}

theorem nodup_storeCall (call : JobsCall) (h : (stored.map JobRecord.id).Nodup) :
    ((storeCall call stored).map JobRecord.id).Nodup := by
  cases call with
  | create job =>
    dsimp only [storeCall, insertRow]
    split_ifs with hfits htaken
    · exact h
    · rw [Option.getD_some, List.map_append, List.map_singleton, ← List.concat_eq_append]
      refine h.concat fun hmem => htaken ?_
      obtain ⟨other, hother, hid⟩ := List.mem_map.mp hmem
      exact List.any_eq_true.mpr ⟨other, hother, decide_eq_true hid⟩
    · exact h
  | update job =>
    dsimp only [storeCall]
    split_ifs
    · rw [map_id_updateRows]
      exact h
    · exact h
  | get jobId => exact h
  | listRecent limit => exact h

/-- An integer column of PostgreSQL is narrower than an integer of SQLite. -/
theorem fits_of_accepts {ints : List ℤ} {texts : List Str} {times : List DateTime}
    (h : PostgresJobRepository.accepts ints texts times = true) :
    ints.all (fitsInt 64) = true := by
  unfold PostgresJobRepository.accepts at h
  rw [Bool.and_eq_true, Bool.and_eq_true] at h
  rw [List.all_eq_true] at h ⊢
  intro n hn
  have hnarrow := h.1.1 n hn
  unfold fitsInt at hnarrow ⊢
  rw [decide_eq_true_eq] at hnarrow ⊢
  norm_num at hnarrow ⊢
  omega

theorem insertRow_isSome_iff {τ : Type} {row : JobRecord τ} {rows : List (JobRecord τ)} :
    (insertRow row rows).isSome = true ↔ ∀ other ∈ rows, other.id ≠ row.id := by
  unfold insertRow
  split_ifs with htaken
  · obtain ⟨other, hother, hid⟩ := List.any_eq_true.mp htaken
    exact iff_of_false (by simp) fun h => h other hother (of_decide_eq_true hid)
  · refine iff_of_true rfl fun other hother hid => htaken ?_
    exact List.any_eq_true.mpr ⟨other, hother, decide_eq_true hid⟩

/-- `create` in both databases. -/
theorem create_map (job : JobRecord DateTime) (stored : List (JobRecord DateTime)) :
    SqliteJobRepository.create job (stored.map SqliteJobRepository.toRow) =
        (if job.insertedInts.all (fitsInt 64) then insertRow job stored else none).map
          (List.map SqliteJobRepository.toRow) ∧
      PostgresJobRepository.create job (stored.map PostgresJobRepository.toRow) =
        (if PostgresJobRepository.accepts job.insertedInts job.insertedTexts job.insertedTimes then
          insertRow job stored else none).map (List.map PostgresJobRepository.toRow) := by
  have hsqlite : insertRow (SqliteJobRepository.toRow job)
      (stored.map SqliteJobRepository.toRow) =
        (insertRow job stored).map (List.map SqliteJobRepository.toRow) := map_insertRow _ _ _
  have hpostgres : insertRow (PostgresJobRepository.toRow job)
      (stored.map PostgresJobRepository.toRow) =
        (insertRow job stored).map (List.map PostgresJobRepository.toRow) := map_insertRow _ _ _
  unfold SqliteJobRepository.create PostgresJobRepository.create
  rw [hsqlite, hpostgres]
  constructor
  · split_ifs <;> rfl
  · split_ifs <;> rfl

/-- `update` in both databases. -/
theorem update_map (job : JobRecord DateTime) (stored : List (JobRecord DateTime)) :
    SqliteJobRepository.update job (stored.map SqliteJobRepository.toRow) =
        (if job.updatedInts.all (fitsInt 64) then some (updateRows job stored) else none).map
          (List.map SqliteJobRepository.toRow) ∧
      PostgresJobRepository.update job (stored.map PostgresJobRepository.toRow) =
        (if PostgresJobRepository.accepts job.updatedInts job.updatedTexts job.updatedTimes then
          some (updateRows job stored) else none).map (List.map PostgresJobRepository.toRow) := by
  have hsqlite : updateRows (SqliteJobRepository.toRow job)
      (stored.map SqliteJobRepository.toRow) =
        (updateRows job stored).map SqliteJobRepository.toRow := map_updateRows _ _ _
  have hpostgres : updateRows (PostgresJobRepository.toRow job)
      (stored.map PostgresJobRepository.toRow) =
        (updateRows job stored).map PostgresJobRepository.toRow := map_updateRows _ _ _
  unfold SqliteJobRepository.update PostgresJobRepository.update
  rw [hsqlite, hpostgres]
  constructor
  · split_ifs <;> rfl
  · split_ifs <;> rfl

theorem SqliteHolds.storeCall (h : SqliteHolds stored rows) (call : JobsCall) :
    SqliteHolds (storeCall call stored) (sqliteJobRepository.step call rows) := by
  obtain ⟨rfl, hnodup⟩ := h
  refine ⟨?_, nodup_storeCall call hnodup⟩
  cases call with
  | create job =>
    dsimp only [sqliteJobRepository, MarketplacePipeline.storeCall]
    rw [(create_map job stored).1]
    split_ifs
    · cases insertRow job stored <;> rfl
    · rfl
  | update job =>
    dsimp only [sqliteJobRepository, MarketplacePipeline.storeCall]
    rw [(update_map job stored).1]
    split_ifs <;> rfl
  | get jobId => rfl
  | listRecent limit => rfl

/-- A statement that both databases take has the same effect on both. -/
theorem PostgresHolds.storeCall (h : PostgresHolds stored rows')
    (hagree : AnswersAgree call stored) :
    PostgresHolds (storeCall call stored) (postgresJobRepository.step call rows') := by
  unfold PostgresHolds at h ⊢
  subst h
  cases call with
  | create job =>
    dsimp only [postgresJobRepository, MarketplacePipeline.storeCall]
    rw [(create_map job stored).2]
    by_cases haccepts : PostgresJobRepository.accepts job.insertedInts job.insertedTexts
        job.insertedTimes = true
    · rw [if_pos haccepts, if_pos (fits_of_accepts haccepts)]
      cases insertRow job stored <;> rfl
    · rw [if_neg haccepts]
      split_ifs with hfits
      · -- refused by both: the id is taken
        have htaken : insertRow job stored = none := by
          rw [← Option.not_isSome_iff_eq_none, insertRow_isSome_iff]
          exact fun hfree => haccepts (hagree hfits hfree)
        rw [htaken]
        rfl
      · rfl
  | update job =>
    dsimp only [postgresJobRepository, MarketplacePipeline.storeCall]
    rw [(update_map job stored).2]
    by_cases haccepts : PostgresJobRepository.accepts job.updatedInts job.updatedTexts
        job.updatedTimes = true
    · rw [if_pos haccepts, if_pos (fits_of_accepts haccepts)]
      rfl
    · rw [if_neg haccepts, if_neg fun hfits => haccepts (hagree hfits)]
      rfl
  | get jobId => rfl
  | listRecent limit => rfl

end Account

/-! ### One call -/

section Answers

variable {stored : List (JobRecord DateTime)} {job : JobRecord DateTime}

theorem ofWrite_eq_iff {rows rows' : Type} {x : Option rows} {y : Option rows'} :
    JobsAnswer.ofWrite job x = JobsAnswer.ofWrite job y ↔ x.isSome = y.isSome := by
  cases x <;> cases y <;> simp [JobsAnswer.ofWrite]

theorem create_agrees_iff (job : JobRecord DateTime) (stored : List (JobRecord DateTime)) :
    JobsAnswer.ofWrite job
        (SqliteJobRepository.create job (stored.map SqliteJobRepository.toRow)) =
        JobsAnswer.ofWrite job
          (PostgresJobRepository.create job (stored.map PostgresJobRepository.toRow)) ↔
      AnswersAgree (.create job) stored := by
  rw [ofWrite_eq_iff, (create_map job stored).1, (create_map job stored).2, Option.isSome_map,
    Option.isSome_map, Bool.eq_iff_iff]
  unfold AnswersAgree
  dsimp only
  rw [← insertRow_isSome_iff]
  by_cases haccepts : PostgresJobRepository.accepts job.insertedInts job.insertedTexts
      job.insertedTimes = true
  · rw [if_pos haccepts, if_pos (fits_of_accepts haccepts)]
    simp [haccepts]
  · rw [if_neg haccepts]
    split_ifs with hfits
    · simp [hfits, haccepts]
    · simp [hfits]

theorem update_agrees_iff (job : JobRecord DateTime) (stored : List (JobRecord DateTime)) :
    JobsAnswer.ofWrite job
        (SqliteJobRepository.update job (stored.map SqliteJobRepository.toRow)) =
        JobsAnswer.ofWrite job
          (PostgresJobRepository.update job (stored.map PostgresJobRepository.toRow)) ↔
      AnswersAgree (.update job) stored := by
  rw [ofWrite_eq_iff, (update_map job stored).1, (update_map job stored).2, Option.isSome_map,
    Option.isSome_map, Bool.eq_iff_iff]
  unfold AnswersAgree
  dsimp only
  by_cases haccepts : PostgresJobRepository.accepts job.updatedInts job.updatedTexts
      job.updatedTimes = true
  · rw [if_pos haccepts, if_pos (fits_of_accepts haccepts)]
    simp [haccepts]
  · rw [if_neg haccepts]
    split_ifs with hfits
    · simp [hfits, haccepts]
    · simp [hfits]

/-- Reading the row of a job gives the job back. -/
theorem fromRow_toRow (now : DateTime) (job : JobRecord DateTime) :
    SqliteJobRepository.fromRow now (SqliteJobRepository.toRow job) = .ok job := by
  -- every time is read back from the text that was written for it
  have hparse : ∀ value : DateTime,
      SqliteJobRepository.parseDt (some value.isoformat) = .ok (some value) := by
    intro value
    have hread := fromisoformat_isoformat value
    unfold SqliteJobRepository.parseDt
    split
    · rename_i heq
      cases heq
    · rename_i heq
      rw [Option.some.inj heq] at hread
      cases hread
    · rename_i text _ heq
      rw [← Option.some.inj heq, hread]
      rfl
  have hoption : ∀ value : Option DateTime,
      SqliteJobRepository.parseDt (value.map fun time => time.isoformat) = .ok value := by
    intro value
    cases value with
    | none => rfl
    | some time => exact hparse time
  unfold SqliteJobRepository.fromRow SqliteJobRepository.toRow JobRecord.map
  dsimp only
  rw [hparse, hoption, hoption]
  rfl

theorem sqlite_get (now : DateTime) (jobId : Str) (stored : List (JobRecord DateTime)) :
    SqliteJobRepository.get now jobId (stored.map SqliteJobRepository.toRow) =
      .ok (findRow jobId stored) := by
  have hfind : findRow jobId (stored.map SqliteJobRepository.toRow) =
      (findRow jobId stored).map SqliteJobRepository.toRow :=
    map_findRow (fun value : DateTime => value.isoformat) stored jobId
  unfold SqliteJobRepository.get
  rw [hfind]
  cases findRow jobId stored with
  | none => rfl
  | some job =>
    rw [Option.map_some]
    dsimp only
    rw [fromRow_toRow]
    rfl

theorem postgres_get (jobId : Str) (stored : List (JobRecord DateTime)) :
    PostgresJobRepository.get jobId (stored.map PostgresJobRepository.toRow) =
      if PostgresJobRepository.accepts [] [jobId] [] = true then
        match findRow jobId stored with
        | none => .ok none
        | some job => (PostgresJobRepository.fromRow (PostgresJobRepository.toRow job)).map some
      else
        .error ⟨.exception, "PostgreSQL text fields cannot contain NUL (0x00) bytes".toList⟩ := by
  have hfind : findRow jobId (stored.map PostgresJobRepository.toRow) =
      (findRow jobId stored).map PostgresJobRepository.toRow :=
    map_findRow (fun value : DateTime => value.instant) stored jobId
  unfold PostgresJobRepository.get
  rw [hfind]
  split_ifs
  · cases findRow jobId stored <;> rfl
  · rfl

theorem get_agrees_iff (now : DateTime) (jobId : Str) (stored : List (JobRecord DateTime))
    (hnodup : (stored.map JobRecord.id).Nodup) :
    JobsAnswer.ofGet (fun value => value.instant)
        (SqliteJobRepository.get now jobId (stored.map SqliteJobRepository.toRow)) =
        JobsAnswer.ofGet (fun time => time)
          (PostgresJobRepository.get jobId (stored.map PostgresJobRepository.toRow)) ↔
      AnswersAgree (.get jobId) stored := by
  rw [sqlite_get, postgres_get]
  unfold AnswersAgree
  dsimp only
  by_cases haccepts : PostgresJobRepository.accepts [] [jobId] [] = true
  · rw [if_pos haccepts, and_iff_right haccepts]
    cases hfind : findRow jobId stored with
    | none =>
      refine iff_of_true rfl fun job hjob hid => ?_
      have hne := List.find?_eq_none.mp hfind job hjob
      exact absurd (decide_eq_true hid) hne
    | some job =>
      have hmem : job ∈ stored := List.mem_of_find?_eq_some hfind
      have hid : job.id = jobId := by simpa using List.find?_some hfind
      -- ids are distinct, so only the row that was found can be unreadable
      have hall : (∀ other ∈ stored, other.id = jobId →
          PostgresJobRepository.readable (PostgresJobRepository.toRow other) = true) ↔
          PostgresJobRepository.readable (PostgresJobRepository.toRow job) = true := by
        constructor
        · exact fun h => h job hmem hid
        · intro h other hother hother'
          rwa [List.inj_on_of_nodup_map hnodup hother hmem (hother'.trans hid.symm)]
      rw [hall]
      dsimp only [PostgresJobRepository.fromRow]
      split_ifs with hreadable
      · refine iff_of_true ?_ hreadable
        have hself := JobRecord.map_self (PostgresJobRepository.toRow job)
        exact congrArg (fun row => JobsAnswer.found (some row)) hself.symm
      · exact iff_of_false (by simp [JobsAnswer.ofGet, Except.map]) hreadable
  · rw [if_neg haccepts]
    exact iff_of_false (by simp [JobsAnswer.ofGet]) fun h => haccepts h.1

/-! ### Lists of jobs -/

theorem mapM_fromRow (now : DateTime) (jobs : List (JobRecord DateTime)) :
    (jobs.map SqliteJobRepository.toRow).mapM (SqliteJobRepository.fromRow now) = .ok jobs := by
  induction jobs with
  | nil => rfl
  | cons job jobs ih =>
    rw [List.map_cons, List.mapM_cons, fromRow_toRow, ih]
    rfl

/-- PostgreSQL reads all rows or none. -/
theorem mapM_postgresFromRow (rows : List (JobRecord Timestamp)) :
    (∃ exc, rows.mapM PostgresJobRepository.fromRow = .error exc) ∧
        ¬ (∀ row ∈ rows, PostgresJobRepository.readable row = true) ∨
      rows.mapM PostgresJobRepository.fromRow = .ok rows ∧
        ∀ row ∈ rows, PostgresJobRepository.readable row = true := by
  induction rows with
  | nil => exact Or.inr ⟨rfl, by simp⟩
  | cons row rows ih =>
    rw [List.mapM_cons]
    unfold PostgresJobRepository.fromRow at ih ⊢
    by_cases hreadable : PostgresJobRepository.readable row = true
    · rw [if_pos hreadable]
      rcases ih with ⟨⟨exc, hexc⟩, hnot⟩ | ⟨hok, hall⟩
      · rw [hexc]
        exact Or.inl ⟨⟨exc, rfl⟩, fun h => hnot fun r hr => h r (List.mem_cons_of_mem _ hr)⟩
      · rw [hok]
        exact Or.inr ⟨rfl, List.forall_mem_cons.mpr ⟨hreadable, hall⟩⟩
    · rw [if_neg hreadable]
      exact Or.inl ⟨⟨_, rfl⟩, fun h => hreadable (h row List.mem_cons_self)⟩

theorem isoformat_injective {a b : DateTime} (h : a.isoformat = b.isoformat) : a = b := by
  have ha := fromisoformat_isoformat a
  rw [h, fromisoformat_isoformat b] at ha
  exact (Except.ok.inj ha).symm

/-- The job of a row, for the rows of stored jobs. -/
def jobOfRow (now : DateTime) (row : JobRecord Str) : JobRecord DateTime :=
  match SqliteJobRepository.fromRow now row with
  | .ok job => job
  | .error _ => row.map fun _ => now

/-- The lists that SQLite may return. -/
theorem sqlite_listRecent_iff {now : DateTime} {limit : ℤ} (hfits : fitsInt 64 limit = true)
    {stored : List (JobRecord DateTime)} {result : Except PyError (List (JobRecord DateTime))} :
    SqliteJobRepository.ListRecent now limit (stored.map SqliteJobRepository.toRow) result ↔
      ∃ jobs, Listing (fun job => job.createdAt.isoformat) (SqliteJobRepository.limitOf limit)
        stored jobs ∧ result = .ok jobs := by
  have hleft : ∀ job ∈ stored, jobOfRow now (SqliteJobRepository.toRow job) = job := by
    intro job _
    rw [jobOfRow, fromRow_toRow]
  unfold SqliteJobRepository.ListRecent
  rw [if_pos hfits]
  constructor
  · rintro ⟨listed, hlisting, rfl⟩
    obtain ⟨jobs, hjobs, rfl⟩ := (listing_map_iff _ hleft).mp hlisting
    exact ⟨jobs, hjobs, mapM_fromRow now jobs⟩
  · rintro ⟨jobs, hjobs, rfl⟩
    exact ⟨_, (listing_map_iff _ hleft).mpr ⟨jobs, hjobs, rfl⟩, (mapM_fromRow now jobs).symm⟩

/-- The lists that PostgreSQL may return. -/
theorem postgres_listed_iff {limit : ℤ} (hfits : fitsInt 64 limit = true) (hlimit : 0 ≤ limit)
    {rows listed : List (JobRecord Timestamp)} :
    (∃ result, PostgresJobRepository.ListRecent limit rows result ∧
        .listed listed = JobsAnswer.ofList (fun time => time) result) ↔
      Listing JobRecord.createdAt (some limit.toNat) rows listed ∧
        ∀ row ∈ listed, PostgresJobRepository.readable row = true := by
  have hself : ∀ rows : List (JobRecord Timestamp),
      rows.map (JobRecord.map fun time => time) = rows := by
    intro rows
    exact (List.map_congr_left fun row _ => JobRecord.map_self row).trans (List.map_id rows)
  simp only [PostgresJobRepository.ListRecent, hfits, if_true, if_neg (not_lt.mpr hlimit)]
  constructor
  · rintro ⟨result, ⟨rows', hlisting, rfl⟩, heq⟩
    rcases mapM_postgresFromRow rows' with ⟨⟨exc, hexc⟩, -⟩ | ⟨hok, hall⟩
    · rw [hexc] at heq
      cases heq
    · rw [hok] at heq
      have hsame : listed = rows' := by
        rw [← hself rows']
        exact JobsAnswer.listed.inj heq
      rw [hsame]
      exact ⟨hlisting, hall⟩
  · rintro ⟨hlisting, hall⟩
    refine ⟨_, ⟨listed, hlisting, rfl⟩, ?_⟩
    rcases mapM_postgresFromRow listed with ⟨-, hnot⟩ | ⟨hok, -⟩
    · exact absurd hall hnot
    · rw [hok]
      exact congrArg JobsAnswer.listed (hself listed).symm

variable (stored) in
/-- PostgreSQL may answer with the rows of some jobs. -/
theorem postgres_listed_toRow_iff {limit : ℤ} (hfits : fitsInt 64 limit = true)
    (hlimit : 0 ≤ limit) (jobs : List (JobRecord DateTime)) :
    (∃ result, PostgresJobRepository.ListRecent limit
        (stored.map PostgresJobRepository.toRow) result ∧
          JobsAnswer.ofList (fun value => value.instant) (.ok jobs) =
            JobsAnswer.ofList (fun time => time) result) ↔
      Listing JobRecord.createdAt (some limit.toNat) (stored.map PostgresJobRepository.toRow)
          (jobs.map PostgresJobRepository.toRow) ∧
        ∀ job ∈ jobs, PostgresJobRepository.readable (PostgresJobRepository.toRow job) = true := by
  refine (postgres_listed_iff hfits hlimit).trans (and_congr_right fun _ => ?_)
  exact List.forall_mem_map

/-- For a negative limit SQLite returns a list and PostgreSQL raises. -/
theorem listRecent_disagrees {limit : ℤ} (hfits : fitsInt 64 limit = true) (hneg : limit < 0)
    (stored : List (JobRecord DateTime)) :
    ¬ ∀ answer, sqliteJobRepository.answer (.listRecent limit)
        (stored.map SqliteJobRepository.toRow) answer →
      postgresJobRepository.answer (.listRecent limit)
        (stored.map PostgresJobRepository.toRow) answer := by
  intro h
  obtain ⟨jobs, hjobs⟩ := exists_listing (fun job : JobRecord DateTime =>
    job.createdAt.isoformat) (SqliteJobRepository.limitOf limit) stored
  obtain ⟨result, hraises, hanswer⟩ :=
    h _ ⟨default, _, (sqlite_listRecent_iff hfits).mpr ⟨jobs, hjobs, rfl⟩, rfl⟩
  simp only [PostgresJobRepository.ListRecent, hfits, if_true, if_pos hneg] at hraises
  rw [hraises] at hanswer
  cases hanswer

/-- A limit that does not fit 64 bits makes both raise. -/
theorem listRecent_agrees_of_large {limit : ℤ} (hlarge : fitsInt 64 limit ≠ true)
    {rows : List (JobRecord Str)} {rows' : List (JobRecord Timestamp)} {answer : JobsAnswer}
    (h : sqliteJobRepository.answer (.listRecent limit) rows answer) :
    postgresJobRepository.answer (.listRecent limit) rows' answer := by
  obtain ⟨now, result, hresult, rfl⟩ := h
  simp only [SqliteJobRepository.ListRecent, if_neg hlarge] at hresult
  refine ⟨.error ⟨.exception, "bigint out of range".toList⟩, ?_, ?_⟩
  · simp only [PostgresJobRepository.ListRecent, if_neg hlarge]
  · rw [hresult]
    rfl

/-- For any other limit it is a matter of the two orders, and of what PostgreSQL can read. -/
theorem listRecent_agrees_of_nonneg {limit : ℤ} (hfits : fitsInt 64 limit = true)
    (hlimit : 0 ≤ limit) (hnodup : (stored.map JobRecord.id).Nodup) :
    (∀ answer, sqliteJobRepository.answer (.listRecent limit)
        (stored.map SqliteJobRepository.toRow) answer →
        postgresJobRepository.answer (.listRecent limit)
          (stored.map PostgresJobRepository.toRow) answer) ↔
      OrdersAgree (fun job : JobRecord DateTime => job.createdAt.isoformat)
          (JobRecord.createdAt ∘ PostgresJobRepository.toRow) limit.toNat stored ∧
        ∀ job, MayBeListed (fun job : JobRecord DateTime => job.createdAt.isoformat)
            limit.toNat stored job →
          PostgresJobRepository.readable (PostgresJobRepository.toRow job) = true := by
  have hkey : ∀ a ∈ stored, ∀ b ∈ stored, a.createdAt.isoformat = b.createdAt.isoformat →
      (PostgresJobRepository.toRow a).createdAt = (PostgresJobRepository.toRow b).createdAt := by
    intro a _ b _ heq
    exact congrArg (fun value : DateTime => value.instant) (isoformat_injective heq)
  have hinj : ∀ a ∈ stored, ∀ b ∈ stored,
      PostgresJobRepository.toRow a = PostgresJobRepository.toRow b → a = b := by
    intro a ha b hb heq
    have hid : (PostgresJobRepository.toRow a).id = (PostgresJobRepository.toRow b).id := by
      rw [heq]
    exact List.inj_on_of_nodup_map hnodup ha hb hid
  have hlimitOf : SqliteJobRepository.limitOf limit = some limit.toNat :=
    if_neg (not_lt.mpr hlimit)
  have hjobs := postgres_listed_toRow_iff stored hfits hlimit
  have hagree := listing_of_listing_iff limit.toNat hkey hinj
  have hreadable := forall_listing_iff
    (fun job : JobRecord DateTime => job.createdAt.isoformat) limit.toNat stored
    fun job => PostgresJobRepository.readable (PostgresJobRepository.toRow job) = true
  -- both conditions are about the lists that SQLite may return
  rw [← hagree, ← hreadable]
  dsimp only [sqliteJobRepository, postgresJobRepository]
  simp only [sqlite_listRecent_iff hfits, hlimitOf]
  constructor
  · intro h
    have hboth := fun jobs hlisting =>
      (hjobs jobs).mp (h _ ⟨default, _, ⟨jobs, hlisting, rfl⟩, rfl⟩)
    exact ⟨fun jobs hlisting => (hboth jobs hlisting).1,
      fun jobs hlisting => (hboth jobs hlisting).2⟩
  · rintro ⟨hlist, hread⟩ answer ⟨now, result, ⟨jobs, hlisting, rfl⟩, rfl⟩
    exact (hjobs jobs).mpr ⟨hlist jobs hlisting, hread jobs hlisting⟩

theorem listRecent_agrees_iff (limit : ℤ) {stored : List (JobRecord DateTime)}
    (hnodup : (stored.map JobRecord.id).Nodup) :
    (∀ answer, sqliteJobRepository.answer (.listRecent limit)
        (stored.map SqliteJobRepository.toRow) answer →
        postgresJobRepository.answer (.listRecent limit)
          (stored.map PostgresJobRepository.toRow) answer) ↔
      AnswersAgree (.listRecent limit) stored := by
  dsimp only [AnswersAgree]
  by_cases hfits : fitsInt 64 limit = true
  · simp only [hfits, forall_const]
    rcases lt_or_ge limit 0 with hneg | hlimit
    · exact iff_of_false (listRecent_disagrees hfits hneg stored)
        fun h => absurd h.1 (not_le.mpr hneg)
    · rw [and_iff_right hlimit]
      exact listRecent_agrees_of_nonneg hfits hlimit hnodup
  · exact iff_of_true (fun answer h => listRecent_agrees_of_large hfits h)
      fun h => absurd h hfits

end Answers

/-! ### Lists of calls -/

theorem call_agrees_iff (call : JobsCall) {stored : List (JobRecord DateTime)}
    {rows : List (JobRecord Str)} {rows' : List (JobRecord Timestamp)}
    (h : SqliteHolds stored rows) (h' : PostgresHolds stored rows') :
    (∀ answer, sqliteJobRepository.answer call rows answer →
        postgresJobRepository.answer call rows' answer) ↔ AnswersAgree call stored := by
  obtain ⟨rfl, hnodup⟩ := h
  unfold PostgresHolds at h'
  subst h'
  cases call with
  | create job =>
    rw [← create_agrees_iff]
    exact ⟨fun h => h _ rfl, fun h answer hanswer => hanswer.trans h⟩
  | update job =>
    rw [← update_agrees_iff]
    exact ⟨fun h => h _ rfl, fun h answer hanswer => hanswer.trans h⟩
  | get jobId =>
    constructor
    · exact fun h => (get_agrees_iff default jobId stored hnodup).mp (h _ ⟨default, rfl⟩)
    · rintro h answer ⟨now, rfl⟩
      exact (get_agrees_iff now jobId stored hnodup).mpr h
  | listRecent limit => exact listRecent_agrees_iff limit hnodup

/-- Every call has an answer. -/
theorem sqlite_answers (call : JobsCall) (rows : List (JobRecord Str)) :
    ∃ answer, sqliteJobRepository.answer call rows answer := by
  cases call with
  | create job => exact ⟨_, rfl⟩
  | update job => exact ⟨_, rfl⟩
  | get jobId => exact ⟨_, default, rfl⟩
  | listRecent limit =>
    by_cases hfits : fitsInt 64 limit = true
    · obtain ⟨listed, hlisting⟩ := exists_listing (fun row : JobRecord Str => row.createdAt)
        (SqliteJobRepository.limitOf limit) rows
      refine ⟨_, default, listed.mapM (SqliteJobRepository.fromRow default), ?_, rfl⟩
      unfold SqliteJobRepository.ListRecent
      rw [if_pos hfits]
      exact ⟨listed, hlisting, rfl⟩
    · have hraises : SqliteJobRepository.ListRecent default limit rows
          (.error ⟨.exception, "Python int too large to convert to SQLite INTEGER".toList⟩) := by
        unfold SqliteJobRepository.ListRecent
        rw [if_neg hfits]
      exact ⟨_, default, _, hraises, rfl⟩

/-- **When the two repositories give the same results**, over any calls from the start: if and only
if each call can be answered alike when the jobs of the calls before it are stored. -/
theorem sqlite_refines_postgres_iff (calls : List JobsCall) :
    sqliteJobRepository.Refines postgresJobRepository [] [] calls ↔
      Meets storeCall AnswersAgree [] calls := by
  have hstart : SqliteHolds [] [] := ⟨rfl, by simp⟩
  exact Component.refines_iff_meets (R := SqliteHolds) (Q := PostgresHolds)
    (fun call _ _ h => h.storeCall call) (fun _ _ _ h hagree => h.storeCall hagree)
    (fun call _ rows _ => sqlite_answers call rows)
    (fun call _ _ _ h h' => call_agrees_iff call h h') hstart rfl calls

/-- For a limit of -1, SQLite returns a list and PostgreSQL raises. -/
theorem not_sqlite_refines_postgres :
    ¬ ∀ calls, sqliteJobRepository.Refines postgresJobRepository [] [] calls := by
  intro hall
  have hlist : SqliteJobRepository.ListRecent default (-1) [] (.ok []) := by
    unfold SqliteJobRepository.ListRecent
    rw [if_pos (by decide)]
    exact ⟨[], ⟨[], List.Perm.refl _, List.Pairwise.nil, rfl⟩, rfl⟩
  have hpossible := hall [.listRecent (-1)] [.listed []]
    ⟨.listed [], [], rfl, ⟨default, .ok [], hlist, rfl⟩, rfl⟩
  obtain ⟨answer, rest, heq, ⟨result, hresult, hanswer⟩, -⟩ := hpossible
  have hraises : result = .error ⟨.exception, "LIMIT must not be negative".toList⟩ := by
    simpa [PostgresJobRepository.ListRecent, fitsInt] using hresult
  rw [hraises, ← (List.cons.inj heq).1] at hanswer
  cases hanswer

end MarketplacePipeline
