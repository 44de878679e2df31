import MarketplacePipeline.Domain.CrmTask

/-!
# Idempotency keys and markers

The key of a CRM task is the SHA-256 digest of its stripped title and description.  The marker that
carries the key is appended to the text of the remote task, and read back from there.
-/

namespace MarketplacePipeline

/-- `hashlib.sha256(text.encode("utf-8")).hexdigest()`: some function with hexadecimal digits as
values. -/
structure Sha256 where
  hexdigest : Str → Str
  hex : ∀ text, ∀ c ∈ hexdigest text, c ∈ "0123456789abcdef".toList

namespace IdempotencyPolicy

/-- `IDEMPOTENCY_MARKER_PREFIX`. -/
def markerPrefix : Str := "[pipeline:idempotency:".toList

/-- `IDEMPOTENCY_MARKER_SUFFIX`. -/
def markerSuffix : Str := "]".toList

/-- `compute_task_idempotency_key(task)`. -/
def computeTaskIdempotencyKey (sha256 : Sha256) (task : CrmTaskRequest) : Str :=
  sha256.hexdigest (task.title.strip ++ "\n".toList ++ task.description.strip)

/-- The marker of a key. -/
def marker (key : Str) : Str := markerPrefix ++ key ++ markerSuffix

/-- `append_idempotency_marker(text, key)`. -/
def appendIdempotencyMarker (text key : Str) : Str :=
  if marker key <:+: text then text else text.rstrip ++ "\n\n".toList ++ marker key

/-- `extract_idempotency_marker(text)`. -/
def extractIdempotencyMarker (text : Str) : Option Str :=
  match Str.find markerPrefix text 0 with
  | none => none
  | some start =>
    match Str.find markerSuffix text start with
    | none => none
    | some stop => some (Str.slice text (start + markerPrefix.length) stop)

end IdempotencyPolicy

end MarketplacePipeline
