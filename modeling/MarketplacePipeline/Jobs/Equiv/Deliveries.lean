import MarketplacePipeline.Jobs.Equiv.Executor

/-!
# The status of a job under repeated and overlapping deliveries

A task queue may deliver a job again, after it finished or while it runs.  The stored status keeps
to its lifecycle in exactly the schedules in which no execution makes its `RUNNING` update once
another one has stored an outcome, and last updates that follow one another come from use cases with
the same outcome (`lifecycle_iff`).

The argument is local to a step.  `written` is what the next step of an execution writes, and
`DeliveryInv` relates the stored row to where the executions stand: it is terminal exactly when
some execution has stored an outcome (`Finished`), and it is then the outcome of each of these
executions (`IsOutcome`).
-/

namespace MarketplacePipeline.Executor

open Schedule

/-! ### One execution -/

/-- Every call of the execution returns, or fails in a way that `except Exception` turns into a
failed job: the execution stores an outcome if nothing stops it. -/
structure ExecEnv.StoresOutcome (env : ExecEnv) : Prop where
  running : env.runningUpdate = .ok ()
  container : env.container = .ok ()
  caught : ∀ exc, env.useCase = .error exc → exc.isException = true
  final : env.finalUpdate = .ok ()

/-- What the next step of an execution writes to the job table. -/
def written (env : ExecEnv) : ExecPc → Option PipelineJob
  | .starting job =>
    match env.runningUpdate with
    | .ok _ => some job
    | .error _ => none
  | .settling job =>
    match env.finalUpdate with
    | .ok _ => some job
    | .error _ => none
  | _ => none

/-- The execution has made its `RUNNING` update and not yet its last one. -/
def Past : ExecPc → Prop
  | .working _ | .settling _ => True
  | _ => False

/-- What holds of the local `job` of an execution. -/
def PcOk (env : ExecEnv) (jobId : Str) : ExecPc → Prop
  | .delivered | .left => True
  | .starting job => job.id = jobId ∧ job.status = .running
  | .working job => job.id = jobId ∧ job.status = .running ∧ env.runningUpdate = .ok ()
  | .settling job =>
    job.id = jobId ∧ job.status ≠ .pending ∧ env.runningUpdate = .ok () ∧
      env.container = .ok () ∧
      (job.status.isTerminal = true ↔ ∀ exc, env.useCase = .error exc → exc.isException = true)

/-- The two writes of an execution: its `RUNNING` update and its last one. -/
theorem written_cases {env : ExecEnv} {pc : ExecPc} {job : PipelineJob}
    (hw : written env pc = some job) :
    (pc = .starting job ∧ env.runningUpdate = .ok ()) ∨
      (pc = .settling job ∧ env.finalUpdate = .ok ()) := by
  cases pc with
  | delivered | working | left => cases hw
  | starting job' =>
    cases hrunning : env.runningUpdate with
    | error exc => simp [written, hrunning] at hw
    | ok u =>
      obtain rfl : job' = job := by simpa [written, hrunning] using hw
      exact Or.inl ⟨rfl, rfl⟩
  | settling job' =>
    cases hfinal : env.finalUpdate with
    | error exc => simp [written, hfinal] at hw
    | ok u =>
      obtain rfl : job' = job := by simpa [written, hfinal] using hw
      exact Or.inr ⟨rfl, rfl⟩

/-- The use case leaves a running job terminal exactly when nothing escapes `except Exception`. -/
theorem runUseCase_status (useCase : Except PyError PipelineResultDTO) {job : PipelineJob}
    (hjob : job.status = .running) :
    (runUseCase useCase job).1.status ≠ .pending ∧
      ((runUseCase useCase job).1.status.isTerminal = true ↔
        ∀ exc, useCase = .error exc → exc.isException = true) := by
  unfold runUseCase
  cases useCase with
  | ok result => simp [JobStatus.isTerminal]
  | error exc =>
    by_cases hexc : exc.isException = true <;> simp [hexc, hjob, JobStatus.isTerminal]

section ExecStep

variable {env : ExecEnv} {jobId : Str} {t : JobTable} {pc : ExecPc} {row : PipelineJob}

theorem execStep_snd (env : ExecEnv) (jobId : Str) (pc : ExecPc) (t : JobTable) :
    (execStep env jobId pc t).2 =
      match written env pc with
      | none => t
      | some job => t.update job := by
  cases pc with
  | delivered => simp only [execStep, written]; split <;> rfl
  | starting job => simp only [execStep, written]; cases env.runningUpdate <;> rfl
  | working job => simp only [execStep, written]; split <;> rfl
  | settling job => simp only [execStep, written]; cases env.finalUpdate <;> rfl
  | left => rfl

theorem PcOk.execStep (h : PcOk env jobId pc) (hget : t.get jobId = some row) :
    PcOk env jobId (execStep env jobId pc t).1 := by
  cases pc with
  | delivered =>
    have hid : row.id = jobId := JobTable.id_of_get hget
    simpa only [Executor.execStep, hget] using ⟨hid, rfl⟩
  | starting job =>
    cases hrunning : env.runningUpdate with
    | error e => simp [Executor.execStep, hrunning, PcOk]
    | ok u => simpa [Executor.execStep, hrunning, PcOk] using h
  | working job =>
    obtain ⟨hid, hstatus, hrunning⟩ := h
    cases hcontainer : env.container with
    | error e => simp [Executor.execStep, hcontainer, PcOk]
    | ok u =>
      have hout := runUseCase_status env.useCase hstatus
      simp only [Executor.execStep, hcontainer]
      exact ⟨by simpa using hid, by simpa using hout.1, hrunning, hcontainer, by simpa using hout.2⟩
  | settling job => simp only [Executor.execStep]; split <;> trivial
  | left => trivial

theorem written_eq (h : PcOk env jobId pc) {job : PipelineJob} (hw : written env pc = some job) :
    job.id = jobId ∧ job.status ≠ .pending ∧ (¬ Past pc → job.status = .running) := by
  rcases written_cases hw with ⟨rfl, -⟩ | ⟨rfl, -⟩
  · exact ⟨h.1, by simp [h.2], fun _ => h.2⟩
  · exact ⟨h.1, h.2.1, fun hpast => absurd trivial hpast⟩

/-- An execution gets past its `RUNNING` update only by making it. -/
theorem past_of_past_execStep (h : Past (execStep env jobId pc t).1) :
    Past pc ∨ (written env pc).isSome := by
  cases pc with
  | delivered =>
    simp only [Executor.execStep] at h
    split at h <;> exact absurd h id
  | starting job =>
    cases hrunning : env.runningUpdate with
    | error e => simp [Executor.execStep, hrunning, Past] at h
    | ok u => exact Or.inr (by simp [written, hrunning])
  | working job => exact Or.inl trivial
  | settling job => exact Or.inl trivial
  | left => exact absurd h id

/-- Leaving the function after storing an outcome takes an update of a terminal job. -/
theorem left_execStep_iff (h : PcOk env jobId pc) (hget : t.get jobId = some row)
    (henv : env.StoresOutcome) :
    (execStep env jobId pc t).1 = .left ↔
      pc = .left ∨ ∃ job, written env pc = some job ∧ job.status.isTerminal = true := by
  cases pc with
  | delivered => simp [Executor.execStep, hget, written]
  | starting job =>
    simp only [Executor.execStep, henv.running, reduceCtorEq, written, Option.some.injEq,
      exists_eq_left', false_or, false_iff]
    simp [h.2, JobStatus.isTerminal]
  | working job => simp [Executor.execStep, henv.container, written]
  | settling job =>
    simp only [Executor.execStep, henv.final, written, Option.some.injEq, exists_eq_left',
      reduceCtorEq, false_or, true_iff]
    exact h.2.2.2.2.mpr henv.caught
  | left => simp [Executor.execStep]

/-- Only an execution that stores an outcome writes a terminal job. -/
theorem storesOutcome_of_written (h : PcOk env jobId pc) {job : PipelineJob}
    (hw : written env pc = some job) (hterminal : job.status.isTerminal = true) :
    env.StoresOutcome ∧ (execStep env jobId pc t).1 = .left := by
  rcases written_cases hw with ⟨rfl, -⟩ | ⟨rfl, hfinal⟩
  · rw [h.2] at hterminal
    cases hterminal
  · obtain ⟨-, -, hrunning, hcontainer, hcaught⟩ := h
    exact ⟨⟨hrunning, hcontainer, hcaught.mp hterminal, hfinal⟩,
      by simp [Executor.execStep, hfinal]⟩

end ExecStep

/-! ### The outcome of a use case -/

/-- The use cases have the same outcome for the row: both return, with the same counts and the same
output path, or both raise an `Exception`, with the same text. -/
def SameOutcome : Except PyError PipelineResultDTO → Except PyError PipelineResultDTO → Prop
  | .ok result, .ok result' =>
    result.collectionResult.collectedCount = result'.collectionResult.collectedCount ∧
      result.enrichedProducts.length = result'.enrichedProducts.length ∧
      result.crmTasks.length = result'.crmTasks.length ∧ result.outputPath = result'.outputPath
  | .error exc, .error exc' =>
    exc.isException = true ∧ exc'.isException = true ∧ exc.text = exc'.text
  | _, _ => False

/-- The job has the status and the result that the `try` and `except` blocks leave of a running job
with the result of `initial`. -/
def IsOutcome (useCase : Except PyError PipelineResultDTO) (initial job : PipelineJob) : Prop :=
  ∃ running : PipelineJob, running.status = .running ∧
    running.resultFields = initial.resultFields ∧
    job.status = (runUseCase useCase running).1.status ∧
    job.resultFields = (runUseCase useCase running).1.resultFields

section Outcome

variable {useCase useCase' : Except PyError PipelineResultDTO} {initial job job' : PipelineJob}

/-- What a use case does to the row depends on its outcome alone. -/
theorem sameOutcome_iff (h : IsOutcome useCase initial job) (h' : IsOutcome useCase' initial job')
    (hcaught : ∀ exc, useCase' = .error exc → exc.isException = true) :
    job.status = job'.status ∧ job.resultFields = job'.resultFields ↔
      SameOutcome useCase useCase' := by
  obtain ⟨running, hstatus, hfields, hjob⟩ := h
  obtain ⟨running', -, hfields', hjob'⟩ := h'
  have hsame : running.resultFields = running'.resultFields := hfields.trans hfields'.symm
  simp only [PipelineJob.resultFields, Prod.mk.injEq] at hsame
  rw [hjob.1, hjob.2, hjob'.1, hjob'.2]
  cases useCase with
  | ok result =>
    cases useCase' with
    | ok result' =>
      simp only [runUseCase, PipelineJob.resultFields, SameOutcome, hsame, Prod.mk.injEq,
        Option.some.injEq, Int.ofNat_inj, and_true, true_and]
    | error exc' => simp [runUseCase, SameOutcome, hcaught exc' rfl]
  | error exc =>
    cases useCase' with
    | ok result' =>
      -- what is not caught leaves the job running
      by_cases hexc : exc.isException = true <;> simp [runUseCase, SameOutcome, hexc, hstatus]
    | error exc' =>
      by_cases hexc : exc.isException = true <;>
        simp [runUseCase, PipelineJob.resultFields, SameOutcome, hexc, hcaught exc' rfl, hstatus,
          hsame]

/-- A use case that leaves the job running leaves its result alone. -/
theorem IsOutcome.resultFields_eq (h : IsOutcome useCase initial job)
    (hnot : ¬ job.status.isTerminal = true) : job.resultFields = initial.resultFields := by
  obtain ⟨running, hstatus, hfields, hjob, hresult⟩ := h
  rw [hresult, ← hfields]
  have hescapes : ¬ ∀ exc, useCase = .error exc → exc.isException = true := by
    rwa [← (runUseCase_status useCase hstatus).2, ← hjob]
  push Not at hescapes
  obtain ⟨exc, rfl, hexc⟩ := hescapes
  simp [runUseCase, hexc]

theorem IsOutcome.congr (h : IsOutcome useCase initial job)
    (heq : job'.status = job.status ∧ job'.resultFields = job.resultFields) :
    IsOutcome useCase initial job' := by
  obtain ⟨running, hstatus, hfields, hjob, hresult⟩ := h
  exact ⟨running, hstatus, hfields, heq.1.trans hjob, heq.2.trans hresult⟩

end Outcome

/-- The result fields of the local `job` of an execution.  Those that are read once an outcome is
stored (`finished`) are not known. -/
def ResultOk (useCase : Except PyError PipelineResultDTO) (initial : PipelineJob)
    (finished : Prop) : ExecPc → Prop
  | .delivered | .left => True
  | .starting job => finished ∨ job.resultFields = initial.resultFields
  | .working job => job.resultFields = initial.resultFields
  | .settling job => IsOutcome useCase initial job

section ResultOk

variable {env : ExecEnv} {jobId : Str} {t : JobTable} {pc : ExecPc} {row initial : PipelineJob}
  {finished : Prop}

theorem ResultOk.mono {finished' : Prop} {useCase : Except PyError PipelineResultDTO}
    (h : ResultOk useCase initial finished pc) (hmono : finished → finished') :
    ResultOk useCase initial finished' pc := by
  cases pc with
  | starting job => exact h.imp_left hmono
  | delivered | left | working | settling => exact h

theorem ResultOk.execStep (hpc : PcOk env jobId pc)
    (h : ResultOk env.useCase initial finished pc) (hget : t.get jobId = some row)
    (hrow : ¬ finished → row.resultFields = initial.resultFields)
    (hlate : ∀ job, pc = .starting job → env.runningUpdate = .ok () → ¬ finished) :
    ResultOk env.useCase initial finished (execStep env jobId pc t).1 := by
  cases pc with
  | delivered =>
    simp only [Executor.execStep, hget]
    by_cases hfinished : finished
    · exact Or.inl hfinished
    · exact Or.inr (hrow hfinished)
  | starting job =>
    cases hrunning : env.runningUpdate with
    | error exc => simp [Executor.execStep, hrunning, ResultOk]
    | ok u =>
      simp only [Executor.execStep, hrunning]
      exact h.resolve_left (hlate job rfl hrunning)
  | working job =>
    cases hcontainer : env.container with
    | error exc => simp [Executor.execStep, hcontainer, ResultOk]
    | ok u =>
      simp only [Executor.execStep, hcontainer]
      exact ⟨job, hpc.2.1, h, rfl, rfl⟩
  | settling job => simp only [Executor.execStep]; split <;> trivial
  | left => trivial

end ResultOk

/-! ### All executions -/

variable {ι : Type}

/-- Execution `k` has left the function after storing an outcome. -/
def Finished (env : ι → ExecEnv) (s : DeliveryState ι) (k : ι) : Prop :=
  s.pc k = .left ∧ (env k).StoresOutcome

/-- A stored row may become another one: the status stays or moves along its lifecycle, and a
terminal row keeps its status and its result. -/
def LegalMove (row row' : PipelineJob) : Prop :=
  (row'.status = row.status ∨ JobStatus.Moves row.status row'.status) ∧
    (row.status.isTerminal = true →
      row'.status = row.status ∧ row'.resultFields = row.resultFields)

theorem LegalMove.refl (row : PipelineJob) : LegalMove row row := ⟨Or.inl rfl, fun _ => ⟨rfl, rfl⟩⟩

/-- A row that is not terminal may get any status but `pending`, and a terminal one only its own
status and result. -/
theorem legalMove_overwrite_iff {row job : PipelineJob} (hjob : job.status ≠ .pending)
    (hstart : row.status = .pending → job.status = .running) :
    LegalMove row (row.overwrite job) ↔
      (row.status.isTerminal = true →
        job.status = row.status ∧ job.resultFields = row.resultFields) := by
  refine ⟨fun h => h.2, fun h => ⟨?_, h⟩⟩
  rw [PipelineJob.overwrite_status]
  cases hrow : row.status with
  | pending =>
    rw [hstart hrow]
    exact Or.inr .start
  | running =>
    cases hstatus : job.status with
    | pending => exact absurd hstatus hjob
    | running => exact Or.inl rfl
    | completed => exact Or.inr .complete
    | failed => exact Or.inr .fail
  | completed | failed =>
    rw [hrow] at h
    exact Or.inl (h rfl).1

variable [DecidableEq ι]

/-- The step of execution `i` keeps the stored row to its lifecycle. -/
def KeepsLifecycle (env : ι → ExecEnv) (jobId : Str) (i : ι) (s : DeliveryState ι) : Prop :=
  ∀ row row', s.shared.get jobId = some row →
    (step env jobId i s).shared.get jobId = some row' → LegalMove row row'

/-- Execution `i` does not make its `RUNNING` update once an execution has stored an outcome, and it
makes its last update after one only if their use cases have the same outcome. -/
structure LateUpdatesAgree (env : ι → ExecEnv) (i : ι) (s : DeliveryState ι) : Prop where
  running : ∀ job, s.pc i = .starting job → (env i).runningUpdate = .ok () →
    ¬ ∃ k, Finished env s k
  final : ∀ job, s.pc i = .settling job → (env i).finalUpdate = .ok () →
    ∀ k, Finished env s k → SameOutcome (env i).useCase (env k).useCase

/-- How the stored row relates to where the executions stand. -/
structure RowOk (env : ι → ExecEnv) (initial : PipelineJob) (s : DeliveryState ι)
    (row : PipelineJob) : Prop where
  terminal_iff : row.status.isTerminal = true ↔ ∃ k, Finished env s k
  started : (∃ i, Past (s.pc i)) → row.status ≠ .pending
  unfinished : (¬ ∃ k, Finished env s k) → row.resultFields = initial.resultFields
  outcome : ∀ k, Finished env s k → IsOutcome (env k).useCase initial row

/-- What holds of the executions of the job that was stored as `initial`. -/
structure DeliveryInv (env : ι → ExecEnv) (jobId : Str) (initial : PipelineJob)
    (s : DeliveryState ι) : Prop where
  pcOk : ∀ i, PcOk (env i) jobId (s.pc i)
  resultOk : ∀ i, ResultOk (env i).useCase initial (∃ k, Finished env s k) (s.pc i)
  stored : ∃ row, s.shared.get jobId = some row ∧ RowOk env initial s row

section Invariant

variable {env : ι → ExecEnv} {jobId : Str} {s : DeliveryState ι} {i : ι} {row initial : PipelineJob}

/-- The row after a step. -/
theorem get_step (hinv : DeliveryInv env jobId initial s) (hget : s.shared.get jobId = some row) :
    (step env jobId i s).shared.get jobId =
      match written (env i) (s.pc i) with
      | none => some row
      | some job => some (row.overwrite job) := by
  show ((execStep (env i) jobId (s.pc i) s.shared).2).get jobId = _
  rw [execStep_snd]
  cases hw : written (env i) (s.pc i) with
  | none => exact hget
  | some job =>
    obtain ⟨hid, -⟩ := written_eq (hinv.pcOk i) hw
    rw [JobTable.get_update, if_pos hid.symm, hget, Option.map_some]

/-- An execution finishes by writing a terminal job. -/
theorem finished_step_iff (hinv : DeliveryInv env jobId initial s)
    (hget : s.shared.get jobId = some row) {k : ι} :
    Finished env (step env jobId i s) k ↔
      Finished env s k ∨ (k = i ∧ (env k).StoresOutcome ∧
        ∃ job, written (env i) (s.pc i) = some job ∧ job.status.isTerminal = true) := by
  by_cases hk : k = i
  · subst hk
    rw [Finished, Finished, step, pc_stepParty_self]
    constructor
    · rintro ⟨hleft, henv⟩
      rcases (left_execStep_iff (hinv.pcOk k) hget henv).mp hleft with h | h
      · exact Or.inl ⟨h, henv⟩
      · exact Or.inr ⟨rfl, henv, h⟩
    · rintro (⟨h, henv⟩ | ⟨-, henv, h⟩)
      · exact ⟨(left_execStep_iff (hinv.pcOk k) hget henv).mpr (Or.inl h), henv⟩
      · exact ⟨(left_execStep_iff (hinv.pcOk k) hget henv).mpr (Or.inr h), henv⟩
  · rw [Finished, Finished, step, pc_stepParty_of_ne hk]
    simp [hk]

omit [DecidableEq ι] in
/-- What the condition says of a step that writes. -/
theorem lateUpdatesAgree_iff (hinv : DeliveryInv env jobId initial s)
    (hrow : RowOk env initial s row) {job : PipelineJob}
    (hw : written (env i) (s.pc i) = some job) :
    LateUpdatesAgree env i s ↔ (row.status.isTerminal = true →
      job.status = row.status ∧ job.resultFields = row.resultFields) := by
  rw [hrow.terminal_iff]
  rcases written_cases hw with ⟨hpc, hrunning⟩ | ⟨hpc, hfinal⟩
  · have hstatus : job.status = .running := by
      have hok := hinv.pcOk i
      rw [hpc] at hok
      exact hok.2
    constructor
    · intro hlate hfinished
      exact absurd hfinished (hlate.running job hpc hrunning)
    · intro hkeeps
      refine ⟨fun _ _ _ hfinished => ?_, fun job' hpc' => ?_⟩
      · -- a terminal row is not running
        have hterminal := hrow.terminal_iff.mpr hfinished
        rw [← (hkeeps hfinished).1, hstatus] at hterminal
        cases hterminal
      · rw [hpc] at hpc'
        cases hpc'
  · have houtcome : IsOutcome (env i).useCase initial job := by
      have hok := hinv.resultOk i
      rw [hpc] at hok
      exact hok
    constructor
    · rintro hlate ⟨k, hk⟩
      exact (sameOutcome_iff houtcome (hrow.outcome k hk) hk.2.caught).mpr
        (hlate.final job hpc hfinal k hk)
    · intro hkeeps
      refine ⟨fun job' hpc' => ?_, fun _ _ _ k hk => ?_⟩
      · rw [hpc] at hpc'
        cases hpc'
      · exact (sameOutcome_iff houtcome (hrow.outcome k hk) hk.2.caught).mp (hkeeps ⟨k, hk⟩)

/-- Under the invariant a step keeps to the lifecycle exactly if it meets the condition. -/
theorem keepsLifecycle_iff (hinv : DeliveryInv env jobId initial s) :
    KeepsLifecycle env jobId i s ↔ LateUpdatesAgree env i s := by
  obtain ⟨row, hget, hrow⟩ := hinv.stored
  have hstep := get_step (i := i) hinv hget
  cases hw : written (env i) (s.pc i) with
  | none =>
    -- the step does not touch the row
    rw [hw] at hstep
    refine iff_of_true (fun r r' hr hr' => ?_)
      ⟨fun job hpc hrunning => ?_, fun job hpc hfinal => ?_⟩
    · obtain rfl := Option.some.inj (hget.symm.trans hr)
      obtain rfl := Option.some.inj (hstep.symm.trans hr')
      exact LegalMove.refl row
    · simp [hpc, written, hrunning] at hw
    · simp [hpc, written, hfinal] at hw
  | some job =>
    rw [hw] at hstep
    obtain ⟨-, hnotPending, hrunning⟩ := written_eq (hinv.pcOk i) hw
    -- on a pending row nobody is past the `RUNNING` update, so this is one
    have hstart : row.status = .pending → job.status = .running := fun h =>
      hrunning fun hp => hrow.started ⟨i, hp⟩ h
    have hmove : KeepsLifecycle env jobId i s ↔ LegalMove row (row.overwrite job) := by
      simp only [KeepsLifecycle, hget, hstep, Option.some.injEq]
      exact ⟨fun h => h _ _ rfl rfl, by rintro h _ _ rfl rfl; exact h⟩
    rw [hmove, legalMove_overwrite_iff hnotPending hstart, lateUpdatesAgree_iff hinv hrow hw]

/-- A step that writes nothing keeps the row. -/
theorem RowOk.of_not_written (hinv : DeliveryInv env jobId initial s)
    (hget : s.shared.get jobId = some row) (hrow : RowOk env initial s row)
    (hw : written (env i) (s.pc i) = none) :
    RowOk env initial (Executor.step env jobId i s) row := by
  have hfinished : ∀ k, Finished env (Executor.step env jobId i s) k ↔ Finished env s k := by
    intro k
    rw [finished_step_iff hinv hget, hw]
    simp
  refine ⟨?_, ?_, ?_, ?_⟩
  · simpa only [hfinished] using hrow.terminal_iff
  · rintro ⟨k, hk⟩
    refine hrow.started ⟨k, ?_⟩
    by_cases hki : k = i
    · subst hki
      rw [Executor.step, pc_stepParty_self] at hk
      exact (past_of_past_execStep hk).resolve_right (by simp [hw])
    · rwa [Executor.step, pc_stepParty_of_ne hki] at hk
  · simpa only [hfinished] using hrow.unfinished
  · simpa only [hfinished] using hrow.outcome

/-- A step that writes under the condition leaves the row in order. -/
theorem RowOk.of_written (hinv : DeliveryInv env jobId initial s)
    (hget : s.shared.get jobId = some row) (hrow : RowOk env initial s row)
    (hlate : LateUpdatesAgree env i s) {job : PipelineJob}
    (hw : written (env i) (s.pc i) = some job) :
    RowOk env initial (Executor.step env jobId i s) (row.overwrite job) := by
  have hkeeps := (lateUpdatesAgree_iff hinv hrow hw).mp hlate
  have hterminal : job.status.isTerminal = true ↔
      ∃ k, Finished env (Executor.step env jobId i s) k := by
    simp only [finished_step_iff hinv hget]
    constructor
    · intro h
      exact ⟨i, Or.inr ⟨rfl, (storesOutcome_of_written (t := s.shared) (hinv.pcOk i) hw h).1,
        job, hw, h⟩⟩
    · rintro ⟨k, hk | ⟨-, -, job', hjob', h⟩⟩
      · -- an outcome was stored before: the step repeats it
        have hbefore := hrow.terminal_iff.mpr ⟨k, hk⟩
        rw [(hkeeps hbefore).1]
        exact hbefore
      · obtain rfl := Option.some.inj (hw.symm.trans hjob')
        exact h
  refine ⟨hterminal, fun _ => (written_eq (hinv.pcOk i) hw).2.1, ?_, ?_⟩
  · intro hnone
    rw [PipelineJob.overwrite_resultFields]
    have hresult := hinv.resultOk i
    rcases written_cases hw with ⟨hpc, hrunning⟩ | ⟨hpc, -⟩
    · rw [hpc] at hresult
      exact hresult.resolve_left (hlate.running job hpc hrunning)
    · rw [hpc] at hresult
      exact hresult.resultFields_eq (hterminal.not.mpr hnone)
  · intro k hk
    rcases (finished_step_iff hinv hget).mp hk with hbefore | ⟨rfl, -, job', hjob', h⟩
    · have hsame := hkeeps (hrow.terminal_iff.mpr ⟨k, hbefore⟩)
      exact (hrow.outcome k hbefore).congr hsame
    · obtain rfl := Option.some.inj (hw.symm.trans hjob')
      rcases written_cases hw with ⟨hpc, -⟩ | ⟨hpc, -⟩
      · have hok := hinv.pcOk k
        rw [hpc] at hok
        rw [hok.2] at h
        cases h
      · have hresult := hinv.resultOk k
        rw [hpc] at hresult
        exact hresult.congr ⟨rfl, rfl⟩

/-- A step that meets the condition keeps the invariant. -/
theorem DeliveryInv.step (hinv : DeliveryInv env jobId initial s)
    (hlate : LateUpdatesAgree env i s) :
    DeliveryInv env jobId initial (step env jobId i s) := by
  obtain ⟨row, hget, hrow⟩ := hinv.stored
  have hstep := get_step (i := i) hinv hget
  have hmono : (∃ k, Finished env s k) → ∃ k, Finished env (Executor.step env jobId i s) k :=
    fun ⟨k, hk⟩ => ⟨k, (finished_step_iff hinv hget).mpr (Or.inl hk)⟩
  have hmoved : ResultOk (env i).useCase initial (∃ k, Finished env s k)
      (execStep (env i) jobId (s.pc i) s.shared).1 :=
    (hinv.resultOk i).execStep (hinv.pcOk i) hget hrow.unfinished hlate.running
  refine ⟨forall_pc_stepParty (P := fun k => PcOk (env k) jobId)
    ((hinv.pcOk i).execStep hget) hinv.pcOk, fun k => ?_, ?_⟩
  · exact (forall_pc_stepParty (P := fun k => ResultOk (env k).useCase initial _) hmoved
      hinv.resultOk k).mono hmono
  · cases hw : written (env i) (s.pc i) with
    | none =>
      rw [hw] at hstep
      exact ⟨row, hstep, hrow.of_not_written hinv hget hw⟩
    | some job =>
      rw [hw] at hstep
      exact ⟨row.overwrite job, hstep, hrow.of_written hinv hget hlate hw⟩

omit [DecidableEq ι] in
theorem deliveryInv_start {t : JobTable} (hget : t.get jobId = some row)
    (hpending : row.status = .pending) : DeliveryInv env jobId row (start t) where
  pcOk _ := trivial
  resultOk _ := trivial
  stored := by
    have hnone : ¬ ∃ k, Finished env (start t) k := by simp [Finished, start]
    refine ⟨row, hget, iff_of_false ?_ hnone, ?_, fun _ => rfl, fun k hk => absurd ⟨k, hk⟩ hnone⟩
    · rw [hpending]
      simp [JobStatus.isTerminal]
    · rintro ⟨i, hi⟩
      exact absurd hi id

end Invariant

/-- **When the lifecycle holds**: from a stored pending job, the schedules of deliveries that keep
the row to its lifecycle in every step are those in which no execution makes its `RUNNING` update
once another one has stored an outcome, and last updates that follow one another come from use
cases with the same outcome. -/
theorem lifecycle_iff (env : ι → ExecEnv) {jobId : Str} {t : JobTable} {job : PipelineJob}
    (hget : t.get jobId = some job) (hpending : job.status = .pending) (schedule : List ι) :
    Meets (step env jobId) (KeepsLifecycle env jobId) (start t) schedule ↔
      Meets (step env jobId) (LateUpdatesAgree env) (start t) schedule :=
  meets_congr_of_invariant (I := DeliveryInv env jobId job)
    (fun _ _ hinv hkeeps => hinv.step ((keepsLifecycle_iff hinv).mp hkeeps))
    (fun _ _ hinv => keepsLifecycle_iff hinv) (deliveryInv_start hget hpending) schedule

/-- Two deliveries of a stored pending job that overlap: both read the row before either writes
it, and each makes its last update after the other one's `RUNNING` update. -/
theorem lifecycle_iff_overlapping :
    Meets (step (fun _ : Fin 2 => smoothEnv) submittedJob.id)
        (KeepsLifecycle (fun _ => smoothEnv) submittedJob.id) (start submittedTable)
        [0, 1, 0, 1, 0, 1, 0, 1] ↔
      Meets (step (fun _ : Fin 2 => smoothEnv) submittedJob.id)
        (LateUpdatesAgree fun _ => smoothEnv) (start submittedTable) [0, 1, 0, 1, 0, 1, 0, 1] :=
  lifecycle_iff (fun _ => smoothEnv)
    (show submittedTable.get submittedJob.id = some submittedJob by decide) rfl
    [0, 1, 0, 1, 0, 1, 0, 1]

/-- A task that is delivered again after it finished takes the job from `completed` back to
`running`. -/
theorem not_keepsLifecycle_redelivered :
    ¬ ∀ (env : Fin 2 → ExecEnv) (jobId : Str) (t : JobTable) (job : PipelineJob)
      (schedule : List (Fin 2)), t.get jobId = some job → job.status = .pending →
      Meets (step env jobId) (KeepsLifecycle env jobId) (start t) schedule := by
  intro hall
  have h := hall (fun _ => smoothEnv) submittedJob.id submittedTable submittedJob
    [0, 0, 0, 0, 1, 1] (by decide) rfl
  have hlast := meets_iff.mp h [0, 0, 0, 0, 1] 1 [] rfl
  have hbefore : ((run (step (fun _ => smoothEnv) submittedJob.id)
      (start (ι := Fin 2) submittedTable) [0, 0, 0, 0, 1]).shared.get submittedJob.id).map
      PipelineJob.status = some .completed := by decide
  have hafter : ((run (step (fun _ => smoothEnv) submittedJob.id)
      (start (ι := Fin 2) submittedTable) [0, 0, 0, 0, 1, 1]).shared.get submittedJob.id).map
      PipelineJob.status = some .running := by decide
  obtain ⟨row, hrow, hcompleted⟩ := Option.map_eq_some_iff.mp hbefore
  obtain ⟨row', hrow', hrunning⟩ := Option.map_eq_some_iff.mp hafter
  have hkept := ((hlast row row' hrow hrow').2 (by rw [hcompleted]; rfl)).1
  rw [hcompleted, hrunning] at hkept
  cases hkept

end MarketplacePipeline.Executor
