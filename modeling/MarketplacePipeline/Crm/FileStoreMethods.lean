import MarketplacePipeline.Crm.FileIdempotencyStore

/-!
# The methods of one file store

`FileStore` is one `FileIdempotencyStore` that is used by one thread while nothing else touches its
files and no operation fails.  `save(path)` moves the store to another file.
-/

namespace MarketplacePipeline

namespace FileIdempotencyStore

/-- `path.with_suffix(f"{path.suffix}.lock")`. -/
def lockPathOf (path : Str) : Str := path ++ ".lock".toList

/-- The attributes of a store. -/
structure FileStore where
  path : Str
  lockPath : Str
  enabled : Bool
  snapshot : Records
  lockPath_eq : lockPath = lockPathOf path

/-- `_load()`, of a file that can be read. -/
def loadRecords (enabled : Bool) (text : Option StoreText) : Records :=
  match load enabled text none with
  | .ok (records, _) => records
  | .error _ => noRecords

/-- `atomic_write_text(path, content)`. -/
def atomicWriteText (path : Str) (content : StoreText) (files : Files Str StoreText) :
    Files Str StoreText :=
  let opened := files.openTruncate (.invalid []) (tmpPath path)
  let written := opened.2.write opened.1 content
  (written.rename (tmpPath path) path).getD written

namespace FileStore

/-- `FileIdempotencyStore(path, enabled=enabled)`. -/
def init (path : Str) (enabled : Bool) (files : Files Str StoreText) : FileStore where
  path := path
  lockPath := lockPathOf path
  enabled := enabled
  snapshot := loadRecords enabled (files.read path)
  lockPath_eq := rfl

/-- `FileIdempotencyStore.load(path)`. -/
def load (path : Str) (files : Files Str StoreText) : FileStore := init path true files

/-- `_reload_locked()`. -/
def reloadLocked (store : FileStore) (files : Files Str StoreText) : FileStore :=
  { store with snapshot := loadRecords store.enabled (files.read store.path) }

/-- `_persist_locked()`. -/
def persistLocked (store : FileStore) (files : Files Str StoreText) : Files Str StoreText :=
  atomicWriteText store.path (.valid store.snapshot) files

/-- `self._path = path`, and the lock path that goes with it. -/
def moveTo (store : FileStore) (path : Str) : FileStore :=
  { store with path := path, lockPath := lockPathOf path, lockPath_eq := rfl }

/-- `get(key)`. -/
def get (store : FileStore) (key : Str) (files : Files Str StoreText) :
    Option IdempotencyRecord × FileStore :=
  let store := store.reloadLocked files
  (store.snapshot key, store)

/-- `put(key, record)`. -/
def put (store : FileStore) (key : Str) (record : IdempotencyRecord)
    (files : Files Str StoreText) : FileStore × Files Str StoreText :=
  if !store.enabled then (store, files)
  else
    -- the lock file is created with its first lock
    let files := files.openCreate (.invalid []) store.lockPath
    let store := store.reloadLocked files
    let store := { store with snapshot := Function.update store.snapshot key (some record) }
    (store, store.persistLocked files)

/-- `save(path)`. -/
def save (store : FileStore) (path : Option Str) (files : Files Str StoreText) :
    FileStore × Files Str StoreText :=
  if !store.enabled then (store, files)
  else
    let files := files.openCreate (.invalid []) store.lockPath
    let store :=
      match path with
      | none => store
      | some path => store.moveTo path
    let store := store.reloadLocked files
    (store, store.persistLocked files)

/-- Calls of `put`, one after the other. -/
def putAll (store : FileStore) (files : Files Str StoreText) :
    List (Str × IdempotencyRecord) → FileStore × Files Str StoreText
  | [] => (store, files)
  | (key, record) :: puts =>
    putAll (store.put key record files).1 (store.put key record files).2 puts

end FileStore

end FileIdempotencyStore

end MarketplacePipeline
