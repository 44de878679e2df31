import MarketplacePipeline.Domain.CrmTask
import MarketplacePipeline.Io.AtomicWrite
import MarketplacePipeline.Python.Error

/-!
# The file idempotency store

Any number of `FileIdempotencyStore` instances, in any number of processes, share one JSON file.
`get` reloads the file under the lock of its instance; `put` and `save` reload it, change it and
write it back under the lock of the instance and the lock of the file.  A step of a call is one of
these operations; the operations of the file system may fail, and a process may die at any step.
-/

namespace MarketplacePipeline

namespace FileIdempotencyStore

/-- `_StoreSnapshot.records`. -/
abbrev Records := Str → Option IdempotencyRecord

/-- `_StoreSnapshot()`. -/
def noRecords : Records := fun _ => none

/-- The text of a store file. -/
inductive StoreText
  /-- Text that `_StoreSnapshot.model_validate_json` accepts. -/
  | valid (records : Records)
  /-- Text that it rejects: not the JSON of a store, or with an entry that is not a record.  These
  are the keys of its entries. -/
  | invalid (keys : List Str)

/-- A call of the store. -/
inductive StoreOp
  | get (key : Str)
  | put (key : Str) (record : IdempotencyRecord)
  /-- `save()`, without a path. -/
  | save

/-- `_load`: the snapshot, and whether it logged that the file could not be loaded.  The read of the
file may raise. -/
def load (enabled : Bool) (text : Option StoreText) (exc : Option PyError) :
    Except PyError (Records × Bool) :=
  if !enabled then .ok (noRecords, false)
  else
    match text, exc with
    | none, _ => .ok (noRecords, false)
    | some (.valid records), none => .ok (records, false)
    | some (.invalid _), none => .ok (noRecords, true)
    | some _, some exc => if exc.isException then .ok (noRecords, true) else .error exc

/-- Where a call stands; `warned` says whether its `_load` logged a failure. -/
inductive StorePc
  /-- `with self._thread_lock` is next, or the return of a store that is not enabled. -/
  | threadLock
  /-- `with interprocess_file_lock(self._lock_path)` is next. -/
  | fileLock
  | reload
  /-- The snapshot is loaded: `get` looks its key up, `put` adds its record. -/
  | loaded (warned : Bool)
  /-- The `open` of `atomic_write_text` is next. -/
  | openTmp (warned : Bool)
  | writeTmp (warned : Bool) (inode : ℕ)
  | replace (warned : Bool)
  | fileUnlock (result : Except PyError (Option IdempotencyRecord))
  | threadUnlock (result : Except PyError (Option IdempotencyRecord))
  | ended (result : Except PyError (Option IdempotencyRecord))
  /-- The process died. -/
  | dead
  deriving DecidableEq

/-- Calls of stores that share a file: what each call does, the instance it is made on, and the
process of every instance. -/
structure StoreCalls (ι κ ρ : Type*) where
  path : Str
  op : ι → StoreOp
  store : ι → κ
  enabled : κ → Bool
  process : κ → ρ

/-- The directory, the two kinds of locks, and the snapshot of every instance.  `renamed` is a log
of the calls whose `os.replace` has happened. -/
structure StoreWorld (ι κ : Type*) where
  files : Files Str StoreText
  fileLock : Option ι
  threadLock : κ → Option ι
  snapshot : κ → Records
  renamed : List ι

/-- What happens next. -/
inductive StoreEvent (ι ρ : Type*)
  /-- The next step of a call; the operation of the file system that it makes may raise. -/
  | call (i : ι) (exc : Option PyError)
  /-- A process dies, with all calls in it. -/
  | die (process : ρ)

abbrev StoreState (ι κ : Type*) := Schedule.Interleaved ι StorePc (StoreWorld ι κ)

variable {ι κ ρ : Type*} [DecidableEq κ]

/-- What `os.replace` raises when there is no temporary file. -/
def fileNotFoundError : PyError := ⟨.exception, "[Errno 2] No such file or directory".toList⟩

/-- The next step of call `i`. -/
def callStep (calls : StoreCalls ι κ ρ) (i : ι) (exc : Option PyError) :
    StorePc → StoreWorld ι κ → StorePc × StoreWorld ι κ
  | .threadLock, w =>
    match calls.op i, calls.enabled (calls.store i), w.threadLock (calls.store i) with
    | .get _, _, none =>
      (.reload, { w with threadLock := Function.update w.threadLock (calls.store i) (some i) })
    | .get _, _, some _ => (.threadLock, w)
    | _, false, _ => (.ended (.ok none), w)
    | _, true, none =>
      (.fileLock, { w with threadLock := Function.update w.threadLock (calls.store i) (some i) })
    | _, true, some _ => (.threadLock, w)
  | .fileLock, w =>
    match w.fileLock with
    | none => (.reload, { w with fileLock := some i })
    | some _ => (.fileLock, w)
  | .reload, w =>
    match load (calls.enabled (calls.store i)) (w.files.read calls.path) exc, calls.op i with
    | .ok (records, warned), _ =>
      (.loaded warned,
        { w with snapshot := Function.update w.snapshot (calls.store i) records })
    | .error exc, .get _ => (.threadUnlock (.error exc), w)
    | .error exc, _ => (.fileUnlock (.error exc), w)
  | .loaded warned, w =>
    match calls.op i with
    | .get key => (.threadUnlock (.ok (w.snapshot (calls.store i) key)), w)
    | .put key record =>
      (.openTmp warned,
        { w with
          snapshot := Function.update w.snapshot (calls.store i)
            (Function.update (w.snapshot (calls.store i)) key (some record)) })
    | .save => (.openTmp warned, w)
  | .openTmp warned, w =>
    match exc with
    | some exc => (.fileUnlock (.error exc), w)
    | none =>
      (.writeTmp warned (w.files.openTruncate (.invalid []) (tmpPath calls.path)).1,
        { w with files := (w.files.openTruncate (.invalid []) (tmpPath calls.path)).2 })
  | .writeTmp warned inode, w =>
    match exc with
    | some exc =>
      -- the text of the temporary file is torn
      (.fileUnlock (.error exc), { w with files := w.files.write inode (.invalid []) })
    | none =>
      (.replace warned,
        { w with files := w.files.write inode (.valid (w.snapshot (calls.store i))) })
  | .replace _, w =>
    match exc, w.files.rename (tmpPath calls.path) calls.path with
    | some exc, _ => (.fileUnlock (.error exc), w)
    | none, none => (.fileUnlock (.error fileNotFoundError), w)
    | none, some files =>
      (.fileUnlock (.ok none), { w with files := files, renamed := w.renamed ++ [i] })
  | .fileUnlock result, w => (.threadUnlock result, { w with fileLock := none })
  | .threadUnlock result, w =>
    (.ended result, { w with threadLock := Function.update w.threadLock (calls.store i) none })
  | .ended result, w => (.ended result, w)
  | .dead, w => (.dead, w)

/-- A call of a process that dies. -/
def StorePc.die : StorePc → StorePc
  | .ended result => .ended result
  | _ => .dead

/-- The death of a process releases its file lock. -/
def dieStep [DecidableEq ρ] (calls : StoreCalls ι κ ρ) (process : ρ) (s : StoreState ι κ) :
    StoreState ι κ where
  shared :=
    { s.shared with
      fileLock := s.shared.fileLock.filter fun i => calls.process (calls.store i) ≠ process }
  pc i := if calls.process (calls.store i) = process then (s.pc i).die else s.pc i

def step [DecidableEq ι] [DecidableEq ρ] (calls : StoreCalls ι κ ρ) :
    StoreEvent ι ρ → StoreState ι κ → StoreState ι κ
  | .call i exc => Schedule.stepParty (callStep calls i exc) i
  | .die process => dieStep calls process

/-- No call has begun. -/
def start (files : Files Str StoreText) (snapshot : κ → Records) : StoreState ι κ :=
  ⟨⟨files, none, fun _ => none, snapshot, []⟩, fun _ => .threadLock⟩

end FileIdempotencyStore

end MarketplacePipeline
