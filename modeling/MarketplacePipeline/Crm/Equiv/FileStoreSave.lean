import MarketplacePipeline.Algorithm.Latest
import MarketplacePipeline.Crm.Equiv.FileStoreMap
import MarketplacePipeline.Crm.FileStoreMethods

/-!
# Saving a store under another path

A call that runs alone does what the method does (`FileStore.run_alone`).  `save(path)` reloads the
store from the file that it moves to, so it writes back what was there: after some puts, the records
are found under the new path exactly if they were there before, or if the path is not new
(`save_keeps_iff`).
-/

namespace MarketplacePipeline.FileIdempotencyStore

open Schedule Latest

/-! ### Files after a method -/

theorem loadRecords_true (text : Option StoreText) : loadRecords true text = recordsOf text := by
  cases text with
  | none => rfl
  | some text => cases text <;> rfl

/-- An empty file has no records, and neither has a file that is not there. -/
theorem recordsOf_read_openCreate (files : Files Str StoreText) (lockPath n : Str) :
    recordsOf ((files.openCreate (.invalid []) lockPath).read n) = recordsOf (files.read n) := by
  rw [Files.read_openCreate]
  split_ifs with hn
  · rw [hn]
    cases files.read lockPath <;> rfl
  · rfl

/-- The file that is written, the temporary file, and every other one. -/
theorem read_atomicWriteText (path : Str) (content : StoreText) (files : Files Str StoreText)
    (n : Str) : (atomicWriteText path content files).read n =
      if n = path then some content else if n = tmpPath path then none else files.read n := by
  have hopen := files.inode_openTruncate_self (.invalid []) (tmpPath path)
  obtain ⟨hnew, hold, hrest⟩ :=
    Files.read_rename (tmpPath_ne path) (rename_written path content files)
  by_cases hpath : n = path
  · rw [if_pos hpath, hpath, hnew, Files.read, Files.inode_write, hopen, Option.map_some,
      Files.content_write_self]
  · rw [if_neg hpath]
    by_cases htmp : n = tmpPath path
    · rw [if_pos htmp, htmp, Files.read, hold]
      rfl
    · rw [if_neg htmp, hrest n htmp hpath, Files.read_write_of_ne content hopen htmp,
        Files.read_openTruncate_of_ne _ _ htmp]

namespace FileStore

variable {store : FileStore} {files : Files Str StoreText}

/-- A put changes the records of its own file, and removes the temporary one. -/
theorem recordsOf_read_put (henabled : store.enabled = true) (key : Str)
    (record : IdempotencyRecord) (files : Files Str StoreText) (n : Str) :
    recordsOf ((store.put key record files).2.read n) =
      if n = store.path then Function.update (recordsOf (files.read store.path)) key (some record)
      else if n = tmpPath store.path then noRecords else recordsOf (files.read n) := by
  unfold put
  rw [henabled, if_neg (by simp)]
  dsimp only [persistLocked, reloadLocked]
  rw [read_atomicWriteText, henabled, loadRecords_true, recordsOf_read_openCreate]
  split_ifs
  · rfl
  · rfl
  · exact recordsOf_read_openCreate files store.lockPath n

@[simp] theorem path_put (key : Str) (record : IdempotencyRecord) :
    (store.put key record files).1.path = store.path := by
  unfold put
  split_ifs <;> rfl

@[simp] theorem enabled_put (key : Str) (record : IdempotencyRecord) :
    (store.put key record files).1.enabled = store.enabled := by
  unfold put
  split_ifs <;> rfl

/-- A save writes the records of the file that it moves to. -/
theorem recordsOf_read_save (henabled : store.enabled = true) (path : Str)
    (files : Files Str StoreText) :
    recordsOf ((store.save (some path) files).2.read path) = recordsOf (files.read path) := by
  unfold save
  rw [henabled, if_neg (by simp)]
  dsimp only [persistLocked, reloadLocked, moveTo]
  rw [read_atomicWriteText, if_pos rfl, henabled, loadRecords_true]
  exact recordsOf_read_openCreate files store.lockPath path

/-- A store that was saved reads the file that it moved to. -/
theorem get_save (henabled : store.enabled = true) (path key : Str)
    (files files' : Files Str StoreText) :
    ((store.save (some path) files).1.get key files').1 = recordsOf (files'.read path) key := by
  unfold save
  rw [henabled, if_neg (by simp)]
  dsimp only [get, reloadLocked, moveTo]
  rw [henabled, loadRecords_true]

theorem get_load (path key : Str) (files files' : Files Str StoreText) :
    ((load path files).get key files').1 = recordsOf (files'.read path) key := by
  dsimp only [get, reloadLocked, load, init]
  rw [loadRecords_true]

/-! ### A call that runs alone -/

/-- What a call does to the store and its files, and what it returns. -/
def call (store : FileStore) (files : Files Str StoreText) :
    StoreOp → Option IdempotencyRecord × Files Str StoreText
  | .get key => ((store.get key files).1, files)
  | .put key record => (none, (store.put key record files).2)
  | .save => (none, (store.save none files).2)

/-- Nine undisturbed steps of a call do what the method does, where the lock file exists. -/
theorem run_alone {ι κ ρ : Type*} [DecidableEq ι] [DecidableEq κ] [DecidableEq ρ]
    (calls : StoreCalls ι κ ρ) (i : ι) (store : FileStore) (hpath : store.path = calls.path)
    (henabled : store.enabled = true) (henabled' : calls.enabled (calls.store i) = true)
    {s : StoreState ι κ} (hpc : s.pc i = .threadLock)
    (hthread : s.shared.threadLock (calls.store i) = none) (hfile : s.shared.fileLock = none)
    (hlock : s.shared.files.inode store.lockPath ≠ none) :
    (run (step calls) s (List.replicate 9 (.call i none))).pc i =
        .ended (.ok (store.call s.shared.files (calls.op i)).1) ∧
      (run (step calls) s (List.replicate 9 (.call i none))).shared.files =
        (store.call s.shared.files (calls.op i)).2 := by
  have hcreate : s.shared.files.openCreate (.invalid []) store.lockPath = s.shared.files :=
    if_neg hlock
  obtain ⟨hpc', hfiles, -⟩ := FileIdempotencyStore.run_alone henabled' hpc hthread hfile
  rw [hpc', hfiles]
  cases hop : calls.op i with
  | get key =>
    simp [StoreOp.answer, StoreOp.isGet, call, get, reloadLocked, hpath, henabled,
      loadRecords_true, text]
  | put key record =>
    simp [StoreOp.answer, StoreOp.isGet, call, put, reloadLocked, hpath, henabled,
      loadRecords_true, hcreate, persistLocked, text]
  | save =>
    simp [StoreOp.answer, StoreOp.isGet, call, save, reloadLocked, hpath, henabled,
      loadRecords_true, hcreate, persistLocked, text]

/-! ### Puts, and a save -/

/-- The record that was put last for a key. -/
def lastPut (key : Str) (puts : List (Str × IdempotencyRecord)) : Option IdempotencyRecord :=
  (puts.findRev? fun put => put.1 = key).map Prod.snd

theorem putAll_concat (puts : List (Str × IdempotencyRecord)) (key : Str)
    (record : IdempotencyRecord) : store.putAll files (puts ++ [(key, record)]) =
      (store.putAll files puts).1.put key record (store.putAll files puts).2 := by
  induction puts generalizing store files with
  | nil => rfl
  | cons put puts ih => exact ih

variable (files) in
theorem path_putAll (puts : List (Str × IdempotencyRecord)) :
    (store.putAll files puts).1.path = store.path := by
  induction puts using List.reverseRecOn with
  | nil => rfl
  | append_singleton puts put ih => rw [putAll_concat, path_put, ih]

variable (files) in
theorem enabled_putAll (puts : List (Str × IdempotencyRecord)) :
    (store.putAll files puts).1.enabled = store.enabled := by
  induction puts using List.reverseRecOn with
  | nil => rfl
  | append_singleton puts put ih => rw [putAll_concat, enabled_put, ih]

/-- The own file has the records that were put last. -/
theorem recordsOf_own_putAll (henabled : store.enabled = true)
    (puts : List (Str × IdempotencyRecord)) (key : Str) :
    recordsOf ((store.putAll files puts).2.read store.path) key =
      (lastPut key puts).or (recordsOf (files.read store.path) key) := by
  induction puts using List.reverseRecOn with
  | nil => rfl
  | append_singleton puts put ih =>
    have hput := recordsOf_read_put ((enabled_putAll files puts).trans henabled) put.1 put.2
      (store.putAll files puts).2 store.path
    rw [path_putAll, if_pos rfl] at hput
    rw [putAll_concat, hput, lastPut, findRev?_concat, Function.update_apply]
    by_cases hkey : put.1 = key
    · simp [hkey]
    · rw [if_neg (Ne.symm hkey), ih, lastPut]
      simp [hkey]

/-- Every other file is as it was, but that the temporary one is gone. -/
theorem recordsOf_other_putAll (henabled : store.enabled = true)
    (puts : List (Str × IdempotencyRecord)) {n : Str} (hn : n ≠ store.path) :
    recordsOf ((store.putAll files puts).2.read n) =
      if n = tmpPath store.path ∧ puts ≠ [] then noRecords else recordsOf (files.read n) := by
  induction puts using List.reverseRecOn with
  | nil => simp [putAll]
  | append_singleton puts put ih =>
    have hput := recordsOf_read_put ((enabled_putAll files puts).trans henabled) put.1 put.2
      (store.putAll files puts).2 n
    rw [path_putAll, if_neg hn] at hput
    rw [putAll_concat, hput, ih]
    by_cases htmp : n = tmpPath store.path
    · simp [htmp]
    · simp [htmp]

theorem puts_ne_nil_of_lastPut {key : Str} {record : IdempotencyRecord}
    {puts : List (Str × IdempotencyRecord)} (h : lastPut key puts = some record) : puts ≠ [] := by
  rintro rfl
  cases h

/-- The store, and another one that is loaded from the path, have the last record of every key that
was put. -/
def KeepsPuts (puts : List (Str × IdempotencyRecord)) (path : Str)
    (s : FileStore × Files Str StoreText) : Prop :=
  ∀ key record, lastPut key puts = some record →
    ((load path s.2).get key s.2).1 = some record ∧ (s.1.get key s.2).1 = some record

/-- **When `save(path)` keeps what was put before**: if and only if the path is that of the store,
or its file had the last record of every key already, and is not the temporary file of the store. -/
theorem save_keeps_iff (henabled : store.enabled = true) (files : Files Str StoreText)
    (puts : List (Str × IdempotencyRecord)) (path : Str) :
    KeepsPuts puts path ((store.putAll files puts).1.save (some path) (store.putAll files puts).2) ↔
      path = store.path ∨ ∀ key record, lastPut key puts = some record →
        path ≠ tmpPath store.path ∧ recordsOf (files.read path) key = some record := by
  have henabled' := (enabled_putAll files puts).trans henabled
  -- the store and the loaded one both read what the file held before the save
  have hkeeps : KeepsPuts puts path
      ((store.putAll files puts).1.save (some path) (store.putAll files puts).2) ↔
        ∀ key record, lastPut key puts = some record →
          recordsOf ((store.putAll files puts).2.read path) key = some record := by
    refine forall₃_congr fun key record _ => ?_
    rw [get_load, get_save henabled', recordsOf_read_save henabled', and_self]
  rw [hkeeps]
  by_cases hpath : path = store.path
  · refine iff_of_true ?_ (Or.inl hpath)
    intro key record hlast
    rw [hpath, recordsOf_own_putAll henabled, hlast]
    rfl
  · rw [or_iff_right hpath]
    refine forall₃_congr fun key record hlast => ?_
    have hne := puts_ne_nil_of_lastPut hlast
    rw [recordsOf_other_putAll henabled puts hpath]
    by_cases htmp : path = tmpPath store.path
    · simp [htmp, hne, noRecords]
    · simp [htmp]

/-! ### A save to a new file -/

/-- A store of a file that is not there. -/
def storeA : FileStore := init ['a'] true noFiles

theorem save_keeps_iff_own :
    KeepsPuts [(['k'], recordOf ['k'])] ['a']
      ((storeA.putAll noFiles [(['k'], recordOf ['k'])]).1.save (some ['a'])
        (storeA.putAll noFiles [(['k'], recordOf ['k'])]).2) :=
  (save_keeps_iff rfl noFiles [(['k'], recordOf ['k'])] ['a']).mpr (Or.inl rfl)

/-- A record that was put is not in the new file that the store is saved to. -/
theorem not_keepsPuts_newPath :
    ¬ KeepsPuts [(['k'], recordOf ['k'])] ['b']
      ((storeA.putAll noFiles [(['k'], recordOf ['k'])]).1.save (some ['b'])
        (storeA.putAll noFiles [(['k'], recordOf ['k'])]).2) := by
  intro h
  have hget : (((storeA.putAll noFiles [(['k'], recordOf ['k'])]).1.save (some ['b'])
      (storeA.putAll noFiles [(['k'], recordOf ['k'])]).2).1.get ['k']
        ((storeA.putAll noFiles [(['k'], recordOf ['k'])]).1.save (some ['b'])
          (storeA.putAll noFiles [(['k'], recordOf ['k'])]).2).2).1 = none := by decide
  cases hget.symm.trans (h ['k'] (recordOf ['k']) rfl).2

end FileStore

end MarketplacePipeline.FileIdempotencyStore
