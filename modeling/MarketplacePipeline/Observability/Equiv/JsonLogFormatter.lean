import MarketplacePipeline.Algorithm.Latest
import MarketplacePipeline.Observability.JsonLogFormatter
import MarketplacePipeline.Python.Equiv.JsonDumps

/-!
# What the log says is what was logged

The stream is read back as the records in their order, each with the correlation id that its own
thread had set last (`readStream_run`).  No message, and no correlation id that a client sends, can
break a line or add one.
-/

namespace MarketplacePipeline.JsonLogFormatter

open JsonDumps JsonLoads JsonGrammar Schedule

variable {float message : Str → Str}

/-! ### One line -/

theorem wellFormed_payload (correlationId : Option Str) (record : Record) :
    WellFormed float (.dict (payload correlationId record)) := by
  unfold payload
  refine .dict ?_ fun field hfield => ?_
  · cases shownId correlationId <;> cases record.exception <;> simp [optionalField]
  · simp only [optionalField, List.mem_append, List.mem_cons, List.not_mem_nil, or_false,
      Option.mem_toList, Option.map_eq_some_iff] at hfield
    rcases hfield with (rfl | rfl | rfl | rfl) | ⟨s, -, rfl⟩ | ⟨s, -, rfl⟩ <;> exact .str _

theorem readPayload_payload (correlationId : Option Str) (record : Record) :
    readPayload (payload correlationId record) = some (shownId correlationId, record) := by
  obtain ⟨time, level, name, text, exception⟩ := record
  unfold payload
  cases shownId correlationId <;> cases exception <;>
    · show ((fromisoformat time.isoformat).toOption >>= _) = _
      rw [fromisoformat_isoformat]
      rfl

/-- A record is read from its line. -/
theorem readLine_format (correlationId : Option Str) (record : Record) :
    readLine float message (format correlationId record) =
      some (shownId correlationId, record) := by
  unfold readLine format
  rw [loads_dumps .oneLine message (wellFormed_payload correlationId record)]
  exact readPayload_payload correlationId record

/-- A line has no line break. -/
theorem newline_not_mem_format (correlationId : Option Str) (record : Record) :
    '\n' ∉ format correlationId record := by
  intro hmem
  have hprintable := printable_dumpValue oneLine_onOneLine
    (wellFormed_payload correlationId record : WellFormed id _) 0
  exact absurd (hprintable '\n' hmem) (by decide)

/-! ### The stream -/

variable {τ : Type} [DecidableEq τ]

/-- An event sets the correlation id of a thread. -/
def setsId (thread : τ) : Event τ → Bool
  | .setCorrelationId thread' _ => thread' = thread
  | .log _ _ => false

/-- The correlation id that a thread has after some events: the one that it has set last. -/
def lastSet (thread : τ) (events : List (Event τ)) : Option Str :=
  match events.findRev? (setsId thread) with
  | some (.setCorrelationId _ value) => value
  | _ => none

/-- The records of some events, with the correlation ids of their threads; `before` has happened
already. -/
def logged (before : List (Event τ)) : List (Event τ) → List (Option Str × Record)
  | [] => []
  | .setCorrelationId thread value :: events =>
    logged (before ++ [.setCorrelationId thread value]) events
  | .log thread record :: events =>
    (lastSet thread before, record) :: logged (before ++ [.log thread record]) events

theorem lastSet_set (thread thread' : τ) (value : Option Str) (before : List (Event τ)) :
    lastSet thread (before ++ [.setCorrelationId thread' value]) =
      if thread' = thread then value else lastSet thread before := by
  unfold lastSet
  rw [Latest.findRev?_concat]
  by_cases h : thread' = thread
  · rw [if_pos (by simpa [setsId] using h), if_pos h]
  · rw [if_neg (by simpa [setsId] using h), if_neg h]

theorem lastSet_log (thread thread' : τ) (record : Record) (before : List (Event τ)) :
    lastSet thread (before ++ [.log thread' record]) = lastSet thread before := by
  unfold lastSet
  rw [Latest.findRev?_concat, if_neg (by simp [setsId])]

/-- A stream of lines. -/
def ofLines (lines : List Str) : Str := (lines.map fun line => line ++ ['\n']).flatten

theorem stream_run (before events : List (Event τ)) {s : State τ}
    (hids : s.correlationId = fun thread => lastSet thread before) :
    (run step s events).stream =
      s.stream ++ ofLines ((logged before events).map fun entry => format entry.1 entry.2) := by
  induction events generalizing before s with
  | nil => simp [ofLines, logged]
  | cons event events ih =>
    rw [run_cons]
    cases event with
    | setCorrelationId thread value =>
      refine ih (before ++ [.setCorrelationId thread value]) (s := step _ s) ?_
      funext thread'
      show Function.update s.correlationId thread value thread' = _
      rw [lastSet_set, hids, Function.update_apply]
      simp only [eq_comm]
    | log thread record =>
      have hids' : (step (.log thread record) s).correlationId =
          fun thread' => lastSet thread' (before ++ [.log thread record]) := by
        simp only [lastSet_log]
        exact hids
      rw [ih (before ++ [.log thread record]) hids']
      show (s.stream ++ (format (s.correlationId thread) record ++ ['\n'])) ++ _ = _
      rw [hids, logged, List.map_cons, List.append_assoc]
      rfl

theorem splitOn_ofLines {lines : List Str} (h : ∀ line ∈ lines, '\n' ∉ line) :
    (ofLines lines).splitOn '\n' = lines ++ [[]] := by
  -- each line ends at the break that `ofLines` adds
  induction lines with
  | nil => rfl
  | cons line lines ih =>
    obtain ⟨hline, hlines⟩ := List.forall_mem_cons.mp h
    have hrest := ih hlines
    rw [List.splitOn_eq_splitOnP] at hrest ⊢
    show ((line ++ ['\n']) ++ ofLines lines).splitOnP _ = _
    rw [List.append_assoc, List.singleton_append,
      List.splitOnP_append_cons_of_forall_mem _ _ (by simp), hrest]
    · rfl
    · intro c hc
      simpa using fun heq : c = '\n' => hline (heq ▸ hc)

theorem mapM_readLine (entries : List (Option Str × Record)) :
    (entries.map fun entry => format entry.1 entry.2).mapM (readLine float message) =
      some (entries.map fun entry => (shownId entry.1, entry.2)) := by
  induction entries with
  | nil => rfl
  | cons entry entries ih =>
    rw [List.map_cons, List.mapM_cons, readLine_format, ih]
    rfl

/-- **The log is read back**: whatever the threads log and in whatever order, the stream shows the
records one after another, each with the correlation id that its own thread had set last. -/
theorem readStream_run (float message : Str → Str) (events : List (Event τ)) :
    readStream float message (run step {} events).stream =
      some ((logged [] events).map fun entry => (shownId entry.1, entry.2)) := by
  unfold readStream
  rw [stream_run [] events (s := {}) rfl, List.nil_append, splitOn_ofLines, List.dropLast_concat,
    mapM_readLine]
  intro line hline
  obtain ⟨entry, -, rfl⟩ := List.mem_map.mp hline
  exact newline_not_mem_format entry.1 entry.2

end MarketplacePipeline.JsonLogFormatter
