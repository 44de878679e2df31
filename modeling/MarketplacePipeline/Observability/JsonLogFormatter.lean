import MarketplacePipeline.Algorithm.Schedule
import MarketplacePipeline.Python.DateTime
import MarketplacePipeline.Python.JsonLoads
import Mathlib.Logic.Function.Basic

/-!
# JSON logs

Threads log to one stream.  The handler has a lock, so that the line of a record is written at once;
`JsonLogFormatter.format` makes the line, with the correlation id that the context of the thread has
at that moment.  `readStream` is what an aggregator makes of the stream: it takes it apart at the
line breaks, and reads each line as JSON.
-/

namespace MarketplacePipeline.JsonLogFormatter

open JsonDumps JsonLoads

/-- A record, and the moment when it is formatted. -/
structure Record where
  time : DateTime
  levelname : Str
  name : Str
  /-- `record.getMessage()`. -/
  message : Str
  /-- `self.formatException(record.exc_info)`. -/
  exception : Option Str := none
  deriving DecidableEq

/-- `correlation_id`, `if correlation_id`. -/
def shownId : Option Str → Option Str
  | some [] => none
  | correlationId => correlationId

/-- A field with a text that may be missing. -/
def optionalField (key : Str) (value : Option Str) : List (Str × Json) :=
  (value.map fun s => (key, Json.str s)).toList

/-- The payload of a record. -/
def payload (correlationId : Option Str) (record : Record) : List (Str × Json) :=
  [("timestamp".toList, .str record.time.isoformat), ("level".toList, .str record.levelname),
    ("logger".toList, .str record.name), ("message".toList, .str record.message)] ++
    (optionalField "correlation_id".toList (shownId correlationId) ++
      optionalField "exception".toList record.exception)

/-- `format(record)`. -/
def format (correlationId : Option Str) (record : Record) : Str :=
  dumps .oneLine (.dict (payload correlationId record))

/-! ### Threads that log -/

/-- What a thread does with its context and the log. -/
inductive Event (τ : Type)
  /-- `correlation_id_var.set(value)`, or `reset(token)` for the token of `value`. -/
  | setCorrelationId (thread : τ) (value : Option Str)
  | log (thread : τ) (record : Record)

/-- The correlation id of every thread, and what stands in the stream. -/
structure State (τ : Type) where
  correlationId : τ → Option Str := fun _ => none
  stream : Str := []

variable {τ : Type} [DecidableEq τ]

/-- `StreamHandler.emit(record)` ends every line. -/
def step : Event τ → State τ → State τ
  | .setCorrelationId thread value, s =>
    { s with correlationId := Function.update s.correlationId thread value }
  | .log thread record, s =>
    { s with stream := s.stream ++ (format (s.correlationId thread) record ++ ['\n']) }

/-! ### Reading the log -/

/-- The text of a field. -/
def fieldText (key : Str) (fields : List (Str × Json)) : Option Str :=
  match fields.lookup key with
  | some (.str s) => some s
  | _ => none

/-- The correlation id and the record that the fields of a line show. -/
def readPayload (fields : List (Str × Json)) : Option (Option Str × Record) := do
  let timestamp ← fieldText "timestamp".toList fields
  let time ← (fromisoformat timestamp).toOption
  let level ← fieldText "level".toList fields
  let name ← fieldText "logger".toList fields
  let text ← fieldText "message".toList fields
  pure (fieldText "correlation_id".toList fields,
    { time := time, levelname := level, name := name, message := text
      exception := fieldText "exception".toList fields })

def readLine (float message : Str → Str) (line : Str) : Option (Option Str × Record) :=
  match loads float message line with
  | .ok (.dict fields) => readPayload fields
  | _ => none

/-- The records of a stream whose last line has ended. -/
def readStream (float message : Str → Str) (stream : Str) : Option (List (Option Str × Record)) :=
  (stream.splitOn '\n').dropLast.mapM (readLine float message)

end MarketplacePipeline.JsonLogFormatter
