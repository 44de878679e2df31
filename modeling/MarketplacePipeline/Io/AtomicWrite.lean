import MarketplacePipeline.Algorithm.Schedule
import MarketplacePipeline.Io.Files
import MarketplacePipeline.Python.Text

/-!
# Atomic writes

`atomic_write_text` writes the text to a temporary file next to the target, chunk by chunk, and
renames it.  `writeStep` is one system call of one writer; any number of writers share the
directory, and a process may die between any two calls.
-/

namespace MarketplacePipeline

/-- `path.with_suffix(f"{path.suffix}.tmp")`. -/
def tmpPath (path : Str) : Str := path ++ ".tmp".toList

theorem tmpPath_ne (path : Str) : tmpPath path ≠ path := by
  intro h
  have hlen := congrArg List.length h
  simp [tmpPath] at hlen

namespace AtomicWrite

variable {ι : Type*}

/-- `write(fd, chunk)` at an offset: what lies behind the end of the file is filled with zeros. -/
def overwrite (bytes : List UInt8) (offset : ℕ) (chunk : List UInt8) : List UInt8 :=
  (bytes ++ List.replicate (offset - bytes.length) 0).take offset ++ chunk ++
    bytes.drop (offset + chunk.length)

/-- Where a writer stands in `atomic_write_text`. -/
inductive WritePc
  /-- The `open` of `tmp_path.write_text` is next. -/
  | openTmp
  /-- The temporary file is open, and the bytes before the offset are written: the next chunk, or
  `os.replace` when there is none. -/
  | write (inode offset : ℕ)
  | returned
  /-- `os.replace` raised `FileNotFoundError`. -/
  | raised
  | crashed
  deriving DecidableEq

/-- The next system call of a writer, which writes at most `size` bytes. -/
def writeStep (path : Str) (content : List UInt8) (size : ℕ) :
    WritePc → Files Str (List UInt8) → WritePc × Files Str (List UInt8)
  | .openTmp, files =>
    (.write (files.openTruncate [] (tmpPath path)).1 0,
      (files.openTruncate [] (tmpPath path)).2)
  | .write inode offset, files =>
    if offset < content.length then
      let chunk := (content.drop offset).take size
      (.write inode (offset + chunk.length),
        files.write inode (overwrite (files.content inode) offset chunk))
    else
      match files.rename (tmpPath path) path with
      | none => (.raised, files)
      | some files => (.returned, files)
  | pc, files => (pc, files)

/-- The process of a writer dies. -/
def crashStep : WritePc → Files Str (List UInt8) → WritePc × Files Str (List UInt8)
  | .openTmp, files | .write _ _, files => (.crashed, files)
  | pc, files => (pc, files)

/-- Writers of one file: its path, and what each of them writes. -/
structure Writers (ι : Type*) where
  path : Str
  content : ι → List UInt8

/-- What happens next. -/
inductive WriteEvent (ι : Type*)
  | call (i : ι) (size : ℕ)
  | crash (i : ι)

abbrev WriteState (ι : Type*) := Schedule.Interleaved ι WritePc (Files Str (List UInt8))

def step [DecidableEq ι] (writers : Writers ι) : WriteEvent ι → WriteState ι → WriteState ι
  | .call i size => Schedule.stepParty (writeStep writers.path (writers.content i) size) i
  | .crash i => Schedule.stepParty crashStep i

/-- No writer has begun; a temporary file of an earlier crash may lie around. -/
def start (files : Files Str (List UInt8)) : WriteState ι := ⟨files, fun _ => .openTmp⟩

end AtomicWrite

end MarketplacePipeline
