import MarketplacePipeline.Jobs.Equiv.SubmitPipelineJob

/-!
# Concurrent requests with one idempotency key

Any number of requests with one key, in any interleaving, submit one job as long as every request
that finds the key taken also finds the row of the job that holds it (`LosersFindRow`); when all
requests have returned, that condition is also necessary (`one_job`).

The invariant has two phases.  Before the first reservation nobody is past `reserve`; after it, one
request `winner` holds the key, and every job id that a request reads from the store is that of the
winner.
-/

namespace MarketplacePipeline.SubmitPipelineJobUseCase

open Schedule

variable {σ ι : Type}

/-! ### One request -/

/-- The request is submitting its own job, or has done so. -/
def Submitting : SubmitPc → Prop
  | .create | .enqueue | .returned _ false => True
  | _ => False

/-- The request has created its row. -/
def RowCreated : SubmitPc → Prop
  | .enqueue | .returned _ false => True
  | _ => False

theorem RowCreated.submitting {pc : SubmitPc} (h : RowCreated pc) : Submitting pc := by
  cases pc with
  | enqueue => trivial
  | returned job isReplay =>
    cases isReplay with
    | false => trivial
    | true => exact absurd h id
  | _ => exact absurd h id

/-- Where a request may stand while the key is held by the job `winnerId`. -/
def PcOk (winnerId : Str) (job : PipelineJob) : SubmitPc → Prop
  | .repositoryGet existingId | .repositoryGetAgain existingId => existingId = winnerId
  | .returned job' true => job'.id = winnerId
  | .returned job' false => job' = job
  | .raised _ => False
  | _ => True

section SubmitStep

variable {reqs : Requests ι σ} {now : ℚ} {job : PipelineJob} {pc : SubmitPc} {w : SubmitWorld σ}

/-- Only `reserve` changes who holds the key. -/
theorem holder_submitStep {t : ℚ} (ht : now ≤ t) :
    reqs.port.holder (submitStep reqs now job pc w).2.store reqs.key t =
      if pc = .reserve ∧ reqs.port.holder w.store reqs.key now = none then
        if t ≤ now + reqs.port.ttl then some job.id else none
      else reqs.port.holder w.store reqs.key t := by
  cases pc with
  | storeGet | storeGetAgain => simp [submitStep, reqs.port.holder_get ht]
  | reserve => simp [submitStep, reqs.port.holder_reserve ht]
  | create =>
    simp only [submitStep, reduceCtorEq, false_and, if_false]
    split <;> rfl
  | _ => simp [submitStep]

variable (hfree : pc = .create → w.repository.get job.id = none)

include hfree

/-- Only `create` changes the job table, by the row of the request's own job. -/
theorem get_submitStep (jobId : Str) :
    (submitStep reqs now job pc w).2.repository.get jobId =
      if pc = .create ∧ jobId = job.id then some job else w.repository.get jobId := by
  cases pc with
  | create =>
    obtain ⟨t, ht⟩ := Option.isSome_iff_exists.mp (JobTable.create_isSome_iff.mpr (hfree rfl))
    simp [submitStep, ht, JobTable.get_create ht]
  | _ => simp [submitStep]

theorem rowCreated_submitStep_iff :
    RowCreated (submitStep reqs now job pc w).1 ↔ RowCreated pc ∨ pc = .create := by
  cases pc with
  | create =>
    obtain ⟨t, ht⟩ := Option.isSome_iff_exists.mp (JobTable.create_isSome_iff.mpr (hfree rfl))
    simp [submitStep, ht, RowCreated]
  | returned job' isReplay => simp [submitStep]
  | enqueue => simp [submitStep, RowCreated]
  | raised exc => simp [submitStep]
  | reserve =>
    simp only [submitStep, reqs.port.reserve_fst]
    cases reqs.port.holder w.store reqs.key now <;> simp [RowCreated]
  | storeGet | storeGetAgain =>
    simp only [submitStep, reqs.port.get_fst]
    cases reqs.port.holder w.store reqs.key now <;> simp [RowCreated]
  | repositoryGet existingId | repositoryGetAgain existingId =>
    simp only [submitStep]
    cases w.repository.get existingId <;> simp [RowCreated]

/-- How a request comes to submit its own job: it gets the key, or it loses the key and finds no
job to replay. -/
theorem submitting_submitStep_iff :
    Submitting (submitStep reqs now job pc w).1 ↔
      Submitting pc ∨
        (pc = .reserve ∨ pc = .storeGetAgain) ∧ reqs.port.holder w.store reqs.key now = none ∨
        ∃ existingId, pc = .repositoryGetAgain existingId ∧
          w.repository.get existingId = none := by
  cases pc with
  | create =>
    obtain ⟨t, ht⟩ := Option.isSome_iff_exists.mp (JobTable.create_isSome_iff.mpr (hfree rfl))
    simp [submitStep, ht, Submitting]
  | returned job' isReplay => simp [submitStep]
  | enqueue => simp [submitStep, Submitting]
  | raised exc => simp [submitStep]
  | reserve =>
    simp only [submitStep, reqs.port.reserve_fst]
    cases reqs.port.holder w.store reqs.key now <;> simp [Submitting]
  | storeGet | storeGetAgain =>
    simp only [submitStep, reqs.port.get_fst]
    cases reqs.port.holder w.store reqs.key now <;> simp [Submitting]
  | repositoryGet existingId | repositoryGetAgain existingId =>
    simp only [submitStep]
    cases hrow : w.repository.get existingId <;> simp [Submitting, hrow]

theorem PcOk.submitStep {winnerId : Str}
    (hholder : reqs.port.holder w.store reqs.key now = some winnerId) (h : PcOk winnerId job pc) :
    PcOk winnerId job (submitStep reqs now job pc w).1 := by
  cases pc with
  | create =>
    obtain ⟨t, ht⟩ := Option.isSome_iff_exists.mp (JobTable.create_isSome_iff.mpr (hfree rfl))
    simp [SubmitPipelineJobUseCase.submitStep, ht, PcOk]
  | returned job' isReplay => exact h
  | enqueue => rfl
  | raised exc => exact h
  | reserve => simp [SubmitPipelineJobUseCase.submitStep, reqs.port.reserve_fst, hholder, PcOk]
  | storeGet | storeGetAgain =>
    simp [SubmitPipelineJobUseCase.submitStep, reqs.port.get_fst, hholder, PcOk]
  | repositoryGet existingId | repositoryGetAgain existingId =>
    obtain rfl : existingId = winnerId := h
    simp only [SubmitPipelineJobUseCase.submitStep]
    cases hrow : w.repository.get existingId with
    | none => trivial
    | some replay => exact JobTable.id_of_get hrow

end SubmitStep

/-! ### All requests -/

/-- At most one request has started to submit its own job. -/
def OneSubmitting (s : SubmitState ι σ) : Prop :=
  ∀ i j, Submitting (s.pc i) → Submitting (s.pc j) → i = j

/-- If the next step of the request is the second repository lookup, of a request that found the
key taken, then the row it looks for exists. -/
def LosersFindRow (a : ι × ℚ≥0) (s : SubmitState ι σ) : Prop :=
  ∀ existingId, s.pc a.1 = .repositoryGetAgain existingId →
    s.shared.repository.get existingId ≠ none

instance (a : ι × ℚ≥0) (s : SubmitState ι σ) : Decidable (LosersFindRow a s) :=
  match h : s.pc a.1 with
  | .repositoryGetAgain existingId =>
    decidable_of_iff (s.shared.repository.get existingId ≠ none) (by simp [LosersFindRow, h])
  | .storeGet | .repositoryGet _ | .reserve | .storeGetAgain | .create | .enqueue
  | .returned _ _ | .raised _ => .isTrue (by simp [LosersFindRow, h])

/-- The requests created one row at most, and those that have returned returned one job id. -/
structure OneJob (reqs : Requests ι σ) (s : SubmitState ι σ) : Prop where
  one_created : ∀ i j, s.shared.repository.get (reqs.job i).id ≠ none →
    s.shared.repository.get (reqs.job j).id ≠ none → i = j
  same_id : ∀ i j job job' isReplay isReplay', s.pc i = .returned job isReplay →
    s.pc j = .returned job' isReplay' → job.id = job'.id

/-- The key is free, and nobody is past `reserve`. -/
structure Unreserved (reqs : Requests ι σ) (s : SubmitState ι σ) : Prop where
  holder : ∀ t, s.shared.clock ≤ t → reqs.port.holder s.shared.store reqs.key t = none
  pc : ∀ i, s.pc i = .storeGet ∨ s.pc i = .reserve

/-- The key is held by the job of `winner`, which is submitting it. -/
structure ReservedBy (reqs : Requests ι σ) (deadline : ℚ) (winner : ι) (s : SubmitState ι σ) :
    Prop where
  holder : ∀ t, s.shared.clock ≤ t → t ≤ deadline →
    reqs.port.holder s.shared.store reqs.key t = some (reqs.job winner).id
  submitting : Submitting (s.pc winner)
  pc : ∀ i, PcOk (reqs.job winner).id (reqs.job i) (s.pc i)

/-- The two phases, and which rows exist. -/
structure SubmitInv (reqs : Requests ι σ) (deadline : ℚ) (s : SubmitState ι σ) : Prop where
  deadline_le : deadline ≤ s.shared.clock + reqs.port.ttl
  rows : ∀ i, s.shared.repository.get (reqs.job i).id ≠ none ↔ RowCreated (s.pc i)
  phase : Unreserved reqs s ∨ ∃ winner, ReservedBy reqs deadline winner s

section Invariant

variable [DecidableEq ι] {reqs : Requests ι σ} {deadline : ℚ} {s : SubmitState ι σ} {a : ι × ℚ≥0}

theorem pc_step_of_ne {i : ι} (h : i ≠ a.1) : (step reqs a s).pc i = s.pc i :=
  pc_stepParty_of_ne h

theorem pc_step_self : (step reqs a s).pc a.1 =
    (submitStep reqs (s.shared.clock + a.2) (reqs.job a.1) (s.pc a.1) s.shared.toSubmitWorld).1 :=
  pc_stepParty_self

/-- Who holds the key after a step. -/
theorem holder_step {t : ℚ} (ht : (step reqs a s).shared.clock ≤ t) :
    reqs.port.holder (step reqs a s).shared.store reqs.key t =
      if s.pc a.1 = .reserve ∧
          reqs.port.holder s.shared.store reqs.key (s.shared.clock + a.2) = none then
        if t ≤ s.shared.clock + a.2 + reqs.port.ttl then some (reqs.job a.1).id else none
      else reqs.port.holder s.shared.store reqs.key t :=
  holder_submitStep ht

omit [DecidableEq ι] in
theorem clock_le_next : s.shared.clock ≤ s.shared.clock + a.2 := le_add_of_nonneg_right a.2.2

omit [DecidableEq ι] in
/-- A request that has not created its row finds its id free. -/
theorem SubmitInv.free (hinv : SubmitInv reqs deadline s) (i : ι) (h : s.pc i = .create) :
    s.shared.repository.get (reqs.job i).id = none := by
  by_contra hrow
  have := (hinv.rows i).mp hrow
  rw [h] at this
  exact this

/-- The job table after a step. -/
theorem get_step (hinv : SubmitInv reqs deadline s) (jobId : Str) :
    (step reqs a s).shared.repository.get jobId =
      if s.pc a.1 = .create ∧ jobId = (reqs.job a.1).id then some (reqs.job a.1)
      else s.shared.repository.get jobId :=
  get_submitStep (hinv.free a.1) jobId

theorem SubmitInv.rows_step (hids : Function.Injective fun i => (reqs.job i).id)
    (hinv : SubmitInv reqs deadline s) (i : ι) :
    (step reqs a s).shared.repository.get (reqs.job i).id ≠ none ↔
      RowCreated ((step reqs a s).pc i) := by
  by_cases hi : i = a.1
  · subst hi
    rw [pc_step_self, rowCreated_submitStep_iff (hinv.free a.1), ← hinv.rows a.1]
    rw [get_step hinv]
    by_cases hcreate : s.pc a.1 = .create <;> simp [hcreate]
  · have hne : (reqs.job i).id ≠ (reqs.job a.1).id := fun h => hi (hids h)
    rw [pc_step_of_ne hi, ← hinv.rows i, get_step hinv, if_neg fun h => hne h.2]

/-- The step that ends the first phase is a reservation, and makes the request the winner. -/
theorem Unreserved.step (hinv : SubmitInv reqs deadline s) (hphase : Unreserved reqs s) :
    Unreserved reqs (step reqs a s) ∨ ReservedBy reqs deadline a.1 (step reqs a s) := by
  have hnone := hphase.holder (s.shared.clock + a.2) clock_le_next
  rcases hphase.pc a.1 with hpc | hpc
  · -- a lookup of the free key changes nothing
    refine Or.inl ⟨fun t ht => ?_, fun i => ?_⟩
    · rw [holder_step ht, hpc]
      simpa using hphase.holder t (clock_le_next.trans ht)
    · refine forall_pc_stepParty
        (P := fun _ pc => pc = SubmitPc.storeGet ∨ pc = SubmitPc.reserve) ?_ hphase.pc i
      show (submitStep reqs _ _ _ _).1 = .storeGet ∨ (submitStep reqs _ _ _ _).1 = .reserve
      rw [hpc]
      simp [submitStep, reqs.port.get_fst, hnone]
  · -- the request reserves the key
    refine Or.inr ⟨fun t ht htd => ?_, ?_, fun i => ?_⟩
    · have hle : t ≤ s.shared.clock + a.2 + reqs.port.ttl :=
        htd.trans (hinv.deadline_le.trans (add_le_add_left clock_le_next _))
      rw [holder_step ht, if_pos ⟨hpc, hnone⟩, if_pos hle]
    · rw [pc_step_self, hpc]
      simp [submitStep, reqs.port.reserve_fst, hnone, Submitting]
    · have hothers : ∀ j, PcOk (reqs.job a.1).id (reqs.job j) (s.pc j) := fun j => by
        rcases hphase.pc j with h | h <;> rw [h] <;> trivial
      refine forall_pc_stepParty (P := fun j => PcOk (reqs.job a.1).id (reqs.job j)) ?_ hothers i
      show PcOk _ _ (submitStep reqs _ _ _ _).1
      rw [hpc]
      simp [submitStep, reqs.port.reserve_fst, hnone, PcOk]

/-- In the second phase the winner keeps the key until the deadline. -/
theorem ReservedBy.step (hinv : SubmitInv reqs deadline s) {winner : ι}
    (hphase : ReservedBy reqs deadline winner s) (hclock : s.shared.clock + a.2 ≤ deadline) :
    ReservedBy reqs deadline winner (step reqs a s) := by
  have hholder := hphase.holder (s.shared.clock + a.2) clock_le_next hclock
  refine ⟨fun t ht htd => ?_, ?_, fun i => ?_⟩
  · rw [holder_step ht, hholder, if_neg (by simp)]
    exact hphase.holder t (clock_le_next.trans ht) htd
  · by_cases hi : winner = a.1
    · rw [hi, pc_step_self, submitting_submitStep_iff (hinv.free a.1)]
      exact Or.inl (hi ▸ hphase.submitting)
    · rw [pc_step_of_ne hi]
      exact hphase.submitting
  · exact forall_pc_stepParty (P := fun j => PcOk (reqs.job winner).id (reqs.job j))
      ((hphase.pc a.1).submitStep (hinv.free a.1) hholder) hphase.pc i

theorem SubmitInv.step (hids : Function.Injective fun i => (reqs.job i).id)
    (hinv : SubmitInv reqs deadline s) (hclock : s.shared.clock + a.2 ≤ deadline) :
    SubmitInv reqs deadline (step reqs a s) where
  deadline_le := hinv.deadline_le.trans (add_le_add_left clock_le_next _)
  rows := hinv.rows_step hids
  phase := by
    rcases hinv.phase with h | ⟨winner, h⟩
    · rcases h.step hinv with h' | h'
      · exact Or.inl h'
      · exact Or.inr ⟨a.1, h'⟩
    · exact Or.inr ⟨winner, h.step hinv hclock⟩

/-- While the key is held, a step turns a request to submitting its own job only where a loser
misses the row. -/
theorem submitting_step_iff (hinv : SubmitInv reqs deadline s) {winner : ι}
    (hphase : ReservedBy reqs deadline winner s) (hclock : s.shared.clock + a.2 ≤ deadline)
    (i : ι) :
    Submitting ((SubmitPipelineJobUseCase.step reqs a s).pc i) ↔
      Submitting (s.pc i) ∨ i = a.1 ∧ ¬ LosersFindRow a s := by
  by_cases hi : i = a.1
  · subst hi
    rw [pc_step_self, submitting_submitStep_iff (hinv.free a.1),
      hphase.holder (s.shared.clock + a.2) clock_le_next hclock]
    simp [LosersFindRow]
  · rw [pc_step_of_ne hi]
    simp [hi]

/-- A second request starts to submit exactly in a step where a loser misses the row. -/
theorem oneSubmitting_step_iff (hinv : SubmitInv reqs deadline s)
    (hclock : s.shared.clock + a.2 ≤ deadline) :
    OneSubmitting (SubmitPipelineJobUseCase.step reqs a s) ↔
      OneSubmitting s ∧ LosersFindRow a s := by
  rcases hinv.phase with hphase | ⟨winner, hphase⟩
  · -- before the first reservation nobody submits, and only the stepping request may start to
    have hidle : ∀ i, ¬ Submitting (s.pc i) := fun i h => by
      rcases hphase.pc i with hpc | hpc <;> rw [hpc] at h <;> exact h
    refine iff_of_true (fun i j hi hj => ?_) ⟨fun i _ hi => absurd hi (hidle i), ?_⟩
    · have hmoved : ∀ k, Submitting ((SubmitPipelineJobUseCase.step reqs a s).pc k) →
          k = a.1 := fun k hk => by
        by_contra hne
        rw [pc_step_of_ne hne] at hk
        exact hidle k hk
      rw [hmoved i hi, hmoved j hj]
    · intro existingId hpc
      rcases hphase.pc a.1 with h | h <;> rw [h] at hpc <;> cases hpc
  · have hstep := submitting_step_iff hinv hphase hclock
    constructor
    · intro hone
      refine ⟨fun i j hi hj => hone i j ((hstep i).mpr (Or.inl hi)) ((hstep j).mpr (Or.inl hj)), ?_⟩
      by_contra hmiss
      have hwinner : winner = a.1 := hone winner a.1 ((hstep winner).mpr (Or.inl hphase.submitting))
        ((hstep a.1).mpr (Or.inr ⟨rfl, hmiss⟩))
      -- the winner does not look for its own row
      refine hmiss fun existingId hpc => ?_
      have hsubmitting := hphase.submitting
      rw [hwinner, hpc] at hsubmitting
      exact absurd hsubmitting id
    · rintro ⟨hone, hfind⟩ i j hi hj
      exact hone i j (((hstep i).mp hi).resolve_right fun h => h.2 hfind)
        (((hstep j).mp hj).resolve_right fun h => h.2 hfind)

end Invariant

/-! ### Whole runs -/

section Runs

variable {reqs : Requests ι σ}

theorem submitInv_start {w : SubmitWorld σ} {clock : ℚ}
    (hunused : reqs.port.holder w.store reqs.key clock = none)
    (hfresh : ∀ i, w.repository.get (reqs.job i).id = none) :
    SubmitInv reqs (clock + reqs.port.ttl) (start w clock) where
  deadline_le := le_rfl
  rows i := by simp [start, hfresh i, RowCreated]
  phase := Or.inl ⟨fun _ ht => reqs.port.holder_expired hunused ht, fun _ => Or.inl rfl⟩

/-- A schedule that takes no longer than until the deadline takes each of its steps before it. -/
theorem meets_deadline [DecidableEq ι] (reqs : Requests ι σ) {deadline : ℚ}
    (s : SubmitState ι σ) (schedule : List (ι × ℚ≥0))
    (h : s.shared.clock + ((schedule.map Prod.snd).sum : ℚ≥0) ≤ deadline) :
    Meets (step reqs) (fun a s => s.shared.clock + a.2 ≤ deadline) s schedule := by
  -- the clock only goes forward, by what is left of the sum
  induction schedule generalizing s with
  | nil => trivial
  | cons a schedule ih =>
    rw [List.map_cons, List.sum_cons, NNRat.coe_add, ← add_assoc] at h
    exact ⟨le_trans (le_add_of_nonneg_right (NNRat.coe_nonneg _)) h, ih _ h⟩

theorem OneSubmitting.oneJob {deadline : ℚ} {s : SubmitState ι σ}
    (hinv : SubmitInv reqs deadline s) (hone : OneSubmitting s) : OneJob reqs s := by
  refine ⟨fun i j hi hj => hone i j ((hinv.rows i).mp hi).submitting
    ((hinv.rows j).mp hj).submitting, ?_⟩
  rcases hinv.phase with hphase | ⟨winner, hphase⟩
  · intro i j job job' isReplay isReplay' hi
    rcases hphase.pc i with h | h <;> rw [h] at hi <;> cases hi
  · have hid : ∀ i job isReplay, s.pc i = .returned job isReplay →
        job.id = (reqs.job winner).id := by
      intro i job isReplay hi
      have hpc := hphase.pc i
      rw [hi] at hpc
      cases isReplay with
      | true => exact hpc
      | false =>
        -- it submitted its own job, so it is the winner
        have hwinner : i = winner := hone i winner (by rw [hi]; trivial) hphase.submitting
        rw [← hwinner, show job = reqs.job i from hpc]
    intro i j job job' isReplay isReplay' hi hj
    rw [hid i job isReplay hi, hid j job' isReplay' hj]

/-- When all requests have returned, those that were submitting have created their row. -/
theorem OneJob.oneSubmitting {deadline : ℚ} {s : SubmitState ι σ}
    (hinv : SubmitInv reqs deadline s) (hreturned : ∀ i, ∃ job isReplay,
      s.pc i = .returned job isReplay) (hone : OneJob reqs s) : OneSubmitting s := by
  have hcreated : ∀ i, Submitting (s.pc i) → s.shared.repository.get (reqs.job i).id ≠ none := by
    intro i hi
    obtain ⟨job, isReplay, hpc⟩ := hreturned i
    rw [hinv.rows i, hpc]
    rw [hpc] at hi
    cases isReplay with
    | false => trivial
    | true => exact absurd hi id
  exact fun i j hi hj => hone.one_created i j (hcreated i hi) (hcreated j hj)

end Runs

/-- **When concurrent requests submit one job**: within the TTL of the key, it is enough that no
request which found the key taken looks for the row of the job before it is created, and when all
requests have returned it is necessary. -/
theorem one_job [DecidableEq ι] (reqs : Requests ι σ) (w : SubmitWorld σ) (clock : ℚ)
    (schedule : List (ι × ℚ≥0)) (hids : Function.Injective fun i => (reqs.job i).id)
    (hunused : reqs.port.holder w.store reqs.key clock = none)
    (hfresh : ∀ i, w.repository.get (reqs.job i).id = none)
    (hwindow : ((schedule.map Prod.snd).sum : ℚ≥0) ≤ reqs.port.ttl) :
    (Meets (step reqs) LosersFindRow (start w clock) schedule →
        OneJob reqs (run (step reqs) (start w clock) schedule)) ∧
      ((∀ i, ∃ job isReplay,
          (run (step reqs) (start w clock) schedule).pc i = .returned job isReplay) →
        OneJob reqs (run (step reqs) (start w clock) schedule) →
        Meets (step reqs) LosersFindRow (start w clock) schedule) := by
  have hstart : SubmitInv reqs (clock + reqs.port.ttl) (start w clock) :=
    submitInv_start hunused hfresh
  have hdeadline := meets_deadline reqs (start w clock) schedule (add_le_add_right hwindow clock)
  have hinv : SubmitInv reqs (clock + reqs.port.ttl)
      (run (step reqs) (start w clock) schedule) :=
    invariant_run_of_meets (fun a s h hclock => h.step hids hclock) hstart hdeadline
  have hidle : OneSubmitting (start (ι := ι) w clock) := fun _ _ hi => absurd hi id
  have hiff : OneSubmitting (run (step reqs) (start w clock) schedule) ↔
      Meets (step reqs) LosersFindRow (start w clock) schedule := by
    rw [run_iff_meets (fun a s h hclock => h.step hids hclock)
      (fun a s h hclock => oneSubmitting_step_iff h hclock) hstart hdeadline, and_iff_right hidle]
  exact ⟨fun h => (hiff.mpr h).oneJob hinv,
    fun hreturned h => hiff.mp (h.oneSubmitting hinv hreturned)⟩

/-! ### Two requests -/

/-- Two requests with the key `k`, sent to replicas that share a Redis store. -/
def twoRequests : Requests (Fin 2) ReservationEntries where
  port := redisJobIdempotencyStore 86400
  call := .executePipelineJobTask
  key := "k".toList
  key_ne := by decide
  job i := jobOf (i + 1)

theorem twoRequests_ids : Function.Injective fun i => (twoRequests.job i).id := by
  have hids : ∀ i j : Fin 2, (twoRequests.job i).id = (twoRequests.job j).id → i = j := by decide
  exact fun i j h => hids i j h

/-- The second request loses the key and looks for the row after the first one has created it. -/
def rowInTime : List (Fin 2 × ℚ≥0) :=
  [(0, 1), (1, 0), (0, 0), (0, 0), (1, 0), (1, 0), (1, 0), (0, 0)]

/-- The second request loses the key and looks for the row before the first one creates it. -/
def rowTooLate : List (Fin 2 × ℚ≥0) :=
  [(0, 1), (1, 0), (0, 0), (1, 0), (1, 0), (1, 0), (1, 0), (1, 0), (0, 0), (0, 0)]

theorem one_job_rowInTime :
    OneJob twoRequests (run (step twoRequests) (start freshWorld 0) rowInTime) :=
  (one_job twoRequests freshWorld 0 rowInTime twoRequests_ids rfl (by decide)
    (by decide +kernel)).1 (by decide +kernel)

/-- Two interleaved requests with one key create two jobs. -/
theorem not_oneJob_rowTooLate :
    ¬ ∀ (reqs : Requests (Fin 2) ReservationEntries) (w : SubmitWorld ReservationEntries)
      (clock : ℚ) (schedule : List (Fin 2 × ℚ≥0)),
      (Function.Injective fun i => (reqs.job i).id) →
      reqs.port.holder w.store reqs.key clock = none →
      (∀ i, w.repository.get (reqs.job i).id = none) →
      ((schedule.map Prod.snd).sum : ℚ≥0) ≤ reqs.port.ttl →
      OneJob reqs (run (step reqs) (start w clock) schedule) := by
  intro hall
  have hone := (hall twoRequests freshWorld 0 rowTooLate twoRequests_ids rfl (by decide)
    (by decide +kernel)).one_created 0 1
  have hrow : ∀ i : Fin 2, (run (step twoRequests) (start freshWorld 0)
      rowTooLate).shared.repository.get (twoRequests.job i).id ≠ none := by decide +kernel
  exact absurd (hone (hrow 0) (hrow 1)) (by decide)

end MarketplacePipeline.SubmitPipelineJobUseCase
