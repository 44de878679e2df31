import MarketplacePipeline.Crm.CreateTaskCalls
import MarketplacePipeline.Crm.Equiv.RemoteTask
import Mathlib.Data.Fintype.Basic
import Mathlib.Data.List.Nodup

/-!
# Concurrent calls and the tasks they create

The calls create one task for each key as long as no call searches the account in vain while
another call with its key is past a search in vain (`SearchesAlone`); when all calls have returned,
that condition is also necessary (`one_task`).  A call that runs alone does what `createTask` does
(`run_solo`).
-/

namespace MarketplacePipeline.AmoCrmGateway

open Schedule IdempotencyPolicy

variable {σ ι : Type}

/-- The call has found no task for its key, in the store or in the account. -/
def Missed : CreateTaskPc → Prop
  | .post | .putCreated _ | .saveCreated _ => True
  | .returned outcome => outcome.reused = false
  | _ => False

instance : DecidablePred Missed
  | .post | .putCreated _ | .saveCreated _ => .isTrue trivial
  | .returned outcome => inferInstanceAs (Decidable (outcome.reused = false))
  | .storeGet | .search | .putFound _ | .saveFound _ => .isFalse id

/-- The call has created a task. -/
def Posted : CreateTaskPc → Prop
  | .putCreated _ | .saveCreated _ => True
  | .returned outcome => outcome.reused = false
  | _ => False

theorem Posted.missed {pc : CreateTaskPc} (h : Posted pc) : Missed pc := by
  cases pc with
  | putCreated outcome | saveCreated outcome => trivial
  | returned outcome => exact h
  | _ => exact absurd h id

/-- At most one call for each key has found no task. -/
def OneMissed (calls : Calls ι σ) (s : CallsState ι σ) : Prop :=
  ∀ i j, calls.key i = calls.key j → Missed (s.pc i) → Missed (s.pc j) → i = j

/-- At most one task was created for each key. -/
def OneTask (calls : Calls ι σ) (s : CallsState ι σ) : Prop :=
  ∀ key, (s.shared.created.filter fun c => calls.key c.1 = key).length ≤ 1

/-- If the next step of the call is a search that finds nothing, no call with its key has searched
in vain before. -/
def SearchesAlone (calls : Calls ι σ) (i : ι) (s : CallsState ι σ) : Prop :=
  s.pc i = .search → findTask (calls.key i) s.shared.tasks = none →
    ∀ j, calls.key j = calls.key i → ¬ Missed (s.pc j)

instance [Fintype ι] (calls : Calls ι σ) (i : ι) (s : CallsState ι σ) :
    Decidable (SearchesAlone calls i s) :=
  inferInstanceAs (Decidable (_ = _ → _ = _ → ∀ j, _ = _ → ¬ Missed (s.pc j)))

/-! ### One call -/

/-- What is known of the outcome that a call carries. -/
def PcOk : CreateTaskPc → Prop
  | .putCreated outcome | .saveCreated outcome => outcome.reused = false
  | _ => True

section CallsStep

variable {calls : Calls ι σ} {i : ι} {pc : CreateTaskPc} {w : CallsWorld ι σ}

theorem PcOk.callsStep (h : PcOk pc) : PcOk (callsStep calls i pc w).1 := by
  cases pc with
  | storeGet => simp only [AmoCrmGateway.callsStep]; split <;> trivial
  | search => simp only [AmoCrmGateway.callsStep]; split <;> trivial
  | post => rfl
  | putCreated outcome => exact h
  | _ => trivial

/-- A call comes to create a task by a search in vain. -/
theorem missed_callsStep_iff (h : PcOk pc) :
    Missed (callsStep calls i pc w).1 ↔
      Missed pc ∨ pc = .search ∧ findTask (calls.key i) w.tasks = none := by
  cases pc with
  | storeGet =>
    simp only [callsStep]
    cases calls.gateway.store.get (calls.key i) w.store <;> simp [Missed, Calls.outcome]
  | search =>
    simp only [callsStep]
    cases findTask (calls.key i) w.tasks <;> simp [Missed]
  | saveCreated outcome => exact iff_of_true h (Or.inl trivial)
  | _ => simp [callsStep, Missed, Calls.outcome]

theorem posted_callsStep_iff (h : PcOk pc) :
    Posted (callsStep calls i pc w).1 ↔ Posted pc ∨ pc = .post := by
  cases pc with
  | storeGet =>
    simp only [callsStep]
    cases calls.gateway.store.get (calls.key i) w.store <;> simp [Posted, Calls.outcome]
  | search =>
    simp only [callsStep]
    cases findTask (calls.key i) w.tasks <;> simp [Posted]
  | saveCreated outcome => exact iff_of_true h (Or.inl trivial)
  | _ => simp [callsStep, Posted, Calls.outcome]

/-- Only `post` creates a task. -/
theorem created_callsStep :
    (callsStep calls i pc w).2.created =
      if pc = .post then w.created ++ [(i, calls.newTask i w.tasks)] else w.created := by
  cases pc with
  | storeGet => simp only [callsStep]; split <;> simp
  | search => simp only [callsStep]; split <;> simp
  | _ => simp [callsStep]

end CallsStep

/-! ### One call alone -/

theorem attempts_of_returned {crm : AmoCrm} {id : Str} (h : crm.postTask 0 = returned id)
    (maxRetries : ℤ) : attempts crm maxRetries = [returned id] := by
  rw [attempts]
  cases (maxRetries - 1).toNat <;> simp [attemptsFrom, h, returned, HttpClient.checkAnswer]

theorem postAnswer_of_returned {crm : AmoCrm} {id : Str} (h : crm.postTask 0 = returned id)
    (maxRetries : ℤ) : postAnswer crm maxRetries = .ok (.ok ⟨[], [id]⟩) := by
  rw [postAnswer]
  cases (maxRetries - 1).toNat <;> simp [answerFrom, h, returned, HttpClient.checkAnswer]

/-- Five undisturbed steps of a call do what `createTask` does with an account that serves its
pages and answers the POST. -/
theorem run_solo [DecidableEq ι] (calls : Calls ι σ) (i : ι) {crm : AmoCrm}
    (hserves : crm.ServesPages) (hnow : crm.now = calls.now)
    (hconfigured : calls.gateway.Configured) (w : CrmWorld σ)
    (hpost : crm.postTask 0 = returned (calls.newId w.tasks)) :
    ∃ outcome w', (calls.gateway.createTask crm (calls.task i)).run w = .ok outcome w' ∧
      let s := run (step calls) (start w.store w.tasks) (List.replicate 5 i)
      s.pc i = .returned outcome ∧ s.shared.store = w'.store ∧ s.shared.tasks = w'.tasks := by
  have hkey : calls.gateway.keyOf (calls.task i) = calls.key i := rfl
  have hstored : ∀ record store, calls.gateway.stored (calls.key i) record store =
      calls.gateway.store.save (calls.gateway.store.put (calls.key i) record store) := by
    intro record store
    rw [stored, if_pos calls.enabled]
  cases hget : calls.gateway.store.get (calls.key i) w.store with
  | some cached =>
    have hlookup : calls.gateway.lookup (calls.gateway.keyOf (calls.task i)) w.store =
        some cached := by
      rw [lookup, if_pos calls.enabled]
      exact hget
    refine ⟨_, w, run_createTask_of_found calls.gateway crm
      (run_findExisting_of_some calls.gateway crm hlookup), ?_⟩
    simp [step, stepParty, start, callsStep, List.replicate, hget, Calls.outcome, reusedOutcome,
      hkey]
  | none =>
    cases hfind : findTask (calls.key i) w.tasks with
    | some item =>
      obtain ⟨n, hn⟩ := calls.gateway.run_createTask_of_findTask hserves calls.enabled calls.live
        hget hfind
      refine ⟨_, _, hn, ?_⟩
      simp [step, stepParty, start, callsStep, List.replicate, hget, hfind, Calls.outcome,
        reusedOutcome, hkey, Calls.record, foundRecord, hnow, hstored]
    | none =>
      obtain ⟨gets, -, hn⟩ :=
        calls.gateway.run_findExisting_of_findTask_none hserves hget hfind
      have hrun := run_createTask_of_not_found calls.gateway crm hn
      rw [if_neg (by simp [calls.live]), run_createRemoteTask _ _ hconfigured, remoteOutcome,
        postAnswer_of_returned hpost] at hrun
      refine ⟨_, _, hrun, ?_⟩
      simp [step, stepParty, start, callsStep, List.replicate, hget, hfind, Calls.outcome, hkey,
        Calls.record, createdRecord, hnow, hstored, createdTasks, attempts_of_returned hpost,
        createdBy, returned, payloadOf, taskPayload, Calls.newTask, calls.live]

/-! ### All calls -/

/-- The calls that created a task are those past their POST, each of them once. -/
structure CallsInv (s : CallsState ι σ) : Prop where
  pcOk : ∀ i, PcOk (s.pc i)
  nodup : (s.shared.created.map Prod.fst).Nodup
  posted : ∀ i, i ∈ s.shared.created.map Prod.fst ↔ Posted (s.pc i)

section Step

variable [DecidableEq ι] {calls : Calls ι σ} {s : CallsState ι σ} {i : ι}

theorem created_step : (step calls i s).shared.created =
    if s.pc i = .post then s.shared.created ++ [(i, calls.newTask i s.shared.tasks)]
    else s.shared.created := created_callsStep

theorem CallsInv.step (hinv : CallsInv s) : CallsInv (step calls i s) where
  pcOk := forall_pc_stepParty (P := fun _ => PcOk) (hinv.pcOk i).callsStep hinv.pcOk
  nodup := by
    rw [created_step]
    split_ifs with hpost
    · have hnew : i ∉ s.shared.created.map Prod.fst := fun h => by
        have := (hinv.posted i).mp h
        rw [hpost] at this
        exact this
      rw [List.map_append, List.map_singleton, ← List.concat_eq_append]
      exact hinv.nodup.concat hnew
    · exact hinv.nodup
  posted j := by
    rw [created_step]
    by_cases hj : j = i
    · subst hj
      rw [AmoCrmGateway.step, pc_stepParty_self, posted_callsStep_iff (hinv.pcOk j),
        ← hinv.posted j]
      split_ifs with hpost <;> simp [hpost]
    · rw [AmoCrmGateway.step, pc_stepParty_of_ne hj, ← hinv.posted j]
      split_ifs <;> simp [hj]

/-- A step keeps one call for each key exactly if it is not a second search in vain. -/
theorem oneMissed_step_iff (hinv : CallsInv s) :
    OneMissed calls (AmoCrmGateway.step calls i s) ↔
      OneMissed calls s ∧ SearchesAlone calls i s := by
  have hmissed : ∀ j, Missed ((AmoCrmGateway.step calls i s).pc j) ↔
      Missed (s.pc j) ∨
        j = i ∧ s.pc i = .search ∧ findTask (calls.key i) s.shared.tasks = none := by
    intro j
    by_cases hj : j = i
    · subst hj
      rw [AmoCrmGateway.step, pc_stepParty_self, missed_callsStep_iff (hinv.pcOk j)]
      simp
    · rw [AmoCrmGateway.step, pc_stepParty_of_ne hj]
      simp [hj]
  constructor
  · intro hone
    refine ⟨fun j k hkey hj hk => hone j k hkey ((hmissed j).mpr (Or.inl hj))
      ((hmissed k).mpr (Or.inl hk)), fun hpc hfind j hkey hj => ?_⟩
    have hji : j = i := hone j i hkey ((hmissed j).mpr (Or.inl hj))
      ((hmissed i).mpr (Or.inr ⟨rfl, hpc, hfind⟩))
    -- the call that searches has not missed yet
    rw [hji, hpc] at hj
    exact hj
  · rintro ⟨hone, halone⟩ j k hkey hj hk
    rcases (hmissed j).mp hj with hj | ⟨hji, hpc, hfind⟩ <;>
      rcases (hmissed k).mp hk with hk | ⟨hki, hpc', hfind'⟩
    · exact hone j k hkey hj hk
    · exact absurd hj (halone hpc' hfind' j (hki ▸ hkey))
    · exact absurd hk (halone hpc hfind k (hji ▸ hkey.symm))
    · rw [hji, hki]

end Step

/-! ### Whole runs -/

theorem callsInv_start (store : σ) (tasks : List RemoteTask) :
    CallsInv (start (ι := ι) store tasks) where
  pcOk _ := trivial
  nodup := List.nodup_nil
  posted i := by simp [start, Posted]

theorem OneMissed.oneTask {calls : Calls ι σ} {s : CallsState ι σ} (hinv : CallsInv s)
    (hone : OneMissed calls s) : OneTask calls s := by
  intro key
  -- all calls that created a task for the key are one call, and no call creates twice
  have hnodup : ((s.shared.created.filter fun c => calls.key c.1 = key).map Prod.fst).Nodup :=
    hinv.nodup.sublist (List.filter_sublist.map _)
  have hsame : ∀ a ∈ (s.shared.created.filter fun c => calls.key c.1 = key).map Prod.fst,
      calls.key a = key ∧ Missed (s.pc a) := by
    intro a ha
    obtain ⟨c, hc, rfl⟩ := List.mem_map.mp ha
    obtain ⟨hmem, hkey⟩ := List.mem_filter.mp hc
    exact ⟨of_decide_eq_true hkey,
      ((hinv.posted c.1).mp (List.mem_map_of_mem hmem)).missed⟩
  rw [← List.length_map (f := Prod.fst)]
  generalize (s.shared.created.filter fun c => calls.key c.1 = key).map Prod.fst = l at *
  match l with
  | [] => exact Nat.zero_le _
  | [a] => exact Nat.le_refl _
  | a :: b :: l =>
    have ha := hsame a (by simp)
    have hb := hsame b (by simp)
    have hab := hone a b (ha.1.trans hb.1.symm) ha.2 hb.2
    simp [hab] at hnodup

/-- When all calls have returned, those that found no task have created one. -/
theorem OneTask.oneMissed {calls : Calls ι σ} {s : CallsState ι σ} (hinv : CallsInv s)
    (hreturned : ∀ i, ∃ outcome, s.pc i = .returned outcome) (hone : OneTask calls s) :
    OneMissed calls s := by
  intro i j hkey hi hj
  have hcreated : ∀ k, Missed (s.pc k) → ∃ t, (k, t) ∈ s.shared.created := by
    intro k hk
    obtain ⟨outcome, hpc⟩ := hreturned k
    have hposted : Posted (s.pc k) := by
      rw [hpc] at hk ⊢
      exact hk
    obtain ⟨c, hc, rfl⟩ := List.mem_map.mp ((hinv.posted k).mpr hposted)
    exact ⟨c.2, hc⟩
  obtain ⟨t, ht⟩ := hcreated i hi
  obtain ⟨t', ht'⟩ := hcreated j hj
  have hmem : (i, t) ∈ s.shared.created.filter fun c => calls.key c.1 = calls.key i := by
    simp [ht]
  have hmem' : (j, t') ∈ s.shared.created.filter fun c => calls.key c.1 = calls.key i := by
    simp [ht', hkey]
  obtain ⟨c, hc⟩ := List.length_eq_one_iff.mp
    (le_antisymm (hone (calls.key i)) (List.length_pos_of_mem hmem))
  rw [hc, List.mem_singleton] at hmem hmem'
  exact congrArg Prod.fst (hmem.trans hmem'.symm)

/-- **When concurrent calls create one task for each key**: it is enough that no call searches in
vain while another one with its key is past a search in vain, and when all calls have returned it
is necessary. -/
theorem one_task [DecidableEq ι] (calls : Calls ι σ) (store : σ) (tasks : List RemoteTask)
    (schedule : List ι) :
    (Meets (step calls) (SearchesAlone calls) (start store tasks) schedule →
        OneTask calls (run (step calls) (start store tasks) schedule)) ∧
      ((∀ i, ∃ outcome,
          (run (step calls) (start store tasks) schedule).pc i = .returned outcome) →
        OneTask calls (run (step calls) (start store tasks) schedule) →
        Meets (step calls) (SearchesAlone calls) (start store tasks) schedule) := by
  have hstart := callsInv_start (ι := ι) store tasks
  have hinv : CallsInv (run (step calls) (start store tasks) schedule) :=
    invariant_run (I := CallsInv) (fun i s h => h.step) hstart schedule
  have hidle : OneMissed calls (start store tasks) := fun _ _ _ hi => absurd hi id
  have hiff : OneMissed calls (run (step calls) (start store tasks) schedule) ↔
      Meets (step calls) (SearchesAlone calls) (start store tasks) schedule := by
    rw [run_iff_meets (I := CallsInv) (D := fun _ _ => True) (fun i s h _ => h.step)
      (fun i s h _ => oneMissed_step_iff h) hstart (meets_iff.mpr fun _ _ _ _ => trivial),
      and_iff_right hidle]
  exact ⟨fun h => (hiff.mpr h).oneTask hinv,
    fun hreturned h => hiff.mp (h.oneMissed hinv hreturned)⟩

/-! ### Two calls -/

/-- Two workers with one task, which share a Redis store. -/
def twoCalls : Calls Bool (Str → Option IdempotencyRecord) where
  gateway := liveGateway
  enabled := rfl
  live := rfl
  now := 0
  newId tasks := if tasks = [] then "1".toList else "2".toList
  task _ := plainTask

/-- The second worker searches after the first one has posted. -/
def searchInTime : List Bool :=
  [false, true, false, false, true, false, false, true, true]

/-- Both workers search before either of them posts. -/
def searchTooEarly : List Bool :=
  [false, true, false, true, false, true, false, false, true, true]

theorem one_task_searchInTime :
    OneTask twoCalls (run (step twoCalls) (start (fun _ => none) []) searchInTime) :=
  (one_task twoCalls (fun _ => none) [] searchInTime).1 (by decide +kernel)

/-- Two interleaved calls with one key create two tasks. -/
theorem not_oneTask_searchTooEarly :
    ¬ ∀ (calls : Calls Bool (Str → Option IdempotencyRecord))
      (store : Str → Option IdempotencyRecord) (tasks : List RemoteTask)
      (schedule : List Bool),
      OneTask calls (run (step calls) (start store tasks) schedule) := by
  intro hall
  have hone := hall twoCalls (fun _ => none) [] searchTooEarly (twoCalls.key false)
  have htwo : ((run (step twoCalls) (start (fun _ => none) []) searchTooEarly).shared.created.filter
      fun c => twoCalls.key c.1 = twoCalls.key false).length = 2 := by
    decide +kernel
  omega

end MarketplacePipeline.AmoCrmGateway
