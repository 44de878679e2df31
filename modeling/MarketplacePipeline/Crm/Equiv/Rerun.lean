import MarketplacePipeline.Crm.Equiv.CreateTask
import Mathlib.Data.List.Forall2

/-!
# The CRM step of a second run

`createTasks` leaves a record for each of its tasks when it returns, and removes none.  A later run
over the same tasks finds these records: it reuses every task and touches neither the store nor the
account (`rerunReuses`).
-/

namespace MarketplacePipeline.AmoCrmGateway

variable {σ : Type} (gateway : AmoCrmGateway σ)

/-- Every record of `store` is a record of `store'`. -/
def KeepsRecords (store store' : σ) : Prop :=
  ∀ key record, gateway.store.get key store = some record →
    gateway.store.get key store' = some record

/-- The store has a record for the task that an outcome is about. -/
def StoredAs (store : σ) (task : CrmTaskRequest) (outcome : CrmTaskOutcome) : Prop :=
  ∃ record, gateway.store.get (gateway.keyOf task) store = some record ∧
    record.taskId = outcome.taskId

/-- After a run over `tasks` that returned, as long as the store keeps its records, a run over
`tasks'` returns the same task ids, each as one that is reused, and changes nothing. -/
def RerunReuses (tasks tasks' : List CrmTaskRequest) : Prop :=
  ∀ calls calls' : List (AmoCrm × CrmTaskRequest), calls.map Prod.snd = tasks →
    calls'.map Prod.snd = tasks' → ∀ w outcomes w₁ w₂,
      (gateway.createTasks calls).run w = .ok outcomes w₁ →
      gateway.KeepsRecords w₁.store w₂.store →
      ∃ outcomes', (gateway.createTasks calls').run w₂ = .ok outcomes' w₂ ∧
        outcomes'.map CrmTaskOutcome.taskId = outcomes.map CrmTaskOutcome.taskId ∧
        ∀ outcome ∈ outcomes', outcome.reused = true

variable {gateway} {store store' store'' : σ} {task : CrmTaskRequest} {outcome : CrmTaskOutcome}

theorem KeepsRecords.refl : gateway.KeepsRecords store store := fun _ _ h => h

theorem KeepsRecords.trans (h : gateway.KeepsRecords store store')
    (h' : gateway.KeepsRecords store' store'') : gateway.KeepsRecords store store'' :=
  fun key record hget => h' key record (h key record hget)

/-- A record under a new key hides no other. -/
theorem keepsRecords_stored {key : Str} {record : IdempotencyRecord}
    (h : gateway.store.get key store = none) :
    gateway.KeepsRecords store (gateway.stored key record store) := by
  intro k found hget
  have hk : k ≠ key := by
    rintro rfl
    rw [h] at hget
    cases hget
  rw [get_stored, if_neg hk, hget]

theorem StoredAs.mono (h : gateway.StoredAs store task outcome)
    (hkeep : gateway.KeepsRecords store store') : gateway.StoredAs store' task outcome := by
  obtain ⟨record, hget, hid⟩ := h
  exact ⟨record, hkeep _ _ hget, hid⟩

/-! ### The first run -/

/-- A call that returns leaves a record of its task. -/
theorem createTask_stores (henabled : gateway.settings.crmIdempotencyEnabled = true)
    {crm : AmoCrm} {w w' : CrmWorld σ}
    (hrun : (gateway.createTask crm task).run w = .ok outcome w') :
    gateway.KeepsRecords w.store w'.store ∧ gateway.StoredAs w'.store task outcome := by
  have hends := gateway.createTask_ends crm task w
  rw [hrun] at hends
  -- what a call that missed the store puts there
  have hput : ∀ record : IdempotencyRecord, record.taskId = outcome.taskId →
      gateway.lookup (gateway.keyOf task) w.store = none →
      gateway.KeepsRecords w.store (gateway.stored (gateway.keyOf task) record w.store) ∧
        gateway.StoredAs (gateway.stored (gateway.keyOf task) record w.store) task outcome := by
    intro record hid miss
    have hnone : gateway.store.get (gateway.keyOf task) w.store = none := by
      simpa [lookup, henabled] using miss
    exact ⟨keepsRecords_stored hnone, record, by rw [get_stored, if_pos rfl], hid⟩
  cases hends with
  | replayed cached hit =>
    have hget : gateway.store.get (gateway.keyOf task) w.store = some cached := by
      simpa [lookup, henabled] using hit
    exact ⟨KeepsRecords.refl, cached, hget, rfl⟩
  | adopted miss enabled live gets isGet taskId => exact hput _ rfl miss
  | mocked miss mock => exact hput _ rfl miss
  | posted miss live configured gets isGet outcome returned => exact hput _ rfl miss

/-- A run that returns leaves a record of each of its tasks. -/
theorem createTasks_stores (henabled : gateway.settings.crmIdempotencyEnabled = true)
    {calls : List (AmoCrm × CrmTaskRequest)} {outcomes : List CrmTaskOutcome} {w w' : CrmWorld σ}
    (hrun : (gateway.createTasks calls).run w = .ok outcomes w') :
    gateway.KeepsRecords w.store w'.store ∧
      List.Forall₂ (gateway.StoredAs w'.store) (calls.map Prod.snd) outcomes := by
  -- a call stores its own record and keeps those of the calls before it
  induction calls generalizing w outcomes with
  | nil =>
    obtain ⟨rfl, rfl⟩ : [] = outcomes ∧ w = w' := by
      have hpure : (EStateM.Result.ok [] w : EStateM.Result PyError _ _) = .ok outcomes w' := hrun
      simpa using hpure
    exact ⟨KeepsRecords.refl, List.Forall₂.nil⟩
  | cons call calls ih =>
    obtain ⟨crm, task⟩ := call
    rw [createTasks, run_bind_eq_ok_iff] at hrun
    obtain ⟨outcome, w₁, hfirst, hnext⟩ := hrun
    obtain ⟨rest, w₂, hrest, hpure⟩ := run_bind_eq_ok_iff.mp hnext
    injection hpure with hlist hworld
    subst hlist hworld
    obtain ⟨hkeep, hstored⟩ := createTask_stores henabled hfirst
    obtain ⟨hkeep', hall⟩ := ih hrest
    exact ⟨hkeep.trans hkeep', List.Forall₂.cons (hstored.mono hkeep') hall⟩

/-! ### The second run -/

/-- A call whose task has a record reuses it, and changes nothing. -/
theorem run_createTask_of_storedAs (henabled : gateway.settings.crmIdempotencyEnabled = true)
    (crm : AmoCrm) {w : CrmWorld σ} (h : gateway.StoredAs w.store task outcome) :
    (gateway.createTask crm task).run w = .ok (gateway.reusedOutcome task outcome.taskId) w := by
  obtain ⟨record, hget, hid⟩ := h
  have hhit : gateway.lookup (gateway.keyOf task) w.store = some record := by
    simpa [lookup, henabled] using hget
  rw [run_createTask_of_found gateway crm (run_findExisting_of_some gateway crm hhit), hid]

theorem run_createTasks_of_storedAs (henabled : gateway.settings.crmIdempotencyEnabled = true)
    {calls : List (AmoCrm × CrmTaskRequest)} {outcomes : List CrmTaskOutcome} {w : CrmWorld σ}
    (h : List.Forall₂ (gateway.StoredAs w.store) (calls.map Prod.snd) outcomes) :
    ∃ outcomes', (gateway.createTasks calls).run w = .ok outcomes' w ∧
      outcomes'.map CrmTaskOutcome.taskId = outcomes.map CrmTaskOutcome.taskId ∧
      ∀ outcome ∈ outcomes', outcome.reused = true := by
  induction calls generalizing outcomes with
  | nil =>
    rw [List.map_nil, List.forall₂_nil_left_iff] at h
    subst h
    exact ⟨[], rfl, rfl, by simp⟩
  | cons call calls ih =>
    obtain ⟨crm, task⟩ := call
    rw [List.map_cons, List.forall₂_cons_left_iff] at h
    obtain ⟨outcome, rest, hstored, hall, rfl⟩ := h
    obtain ⟨outcomes', hrun, hids, hreused⟩ := ih hall
    refine ⟨gateway.reusedOutcome task outcome.taskId :: outcomes', ?_, ?_, ?_⟩
    · rw [createTasks, run_bind_eq_ok_iff]
      refine ⟨_, w, run_createTask_of_storedAs henabled crm hstored, ?_⟩
      exact run_bind_eq_ok_iff.mpr ⟨outcomes', w, hrun, rfl⟩
    · rw [List.map_cons, List.map_cons, hids]
      rfl
    · rw [List.forall_mem_cons]
      exact ⟨rfl, hreused⟩

/-- **A second run over the same tasks creates nothing.** -/
theorem rerunReuses (henabled : gateway.settings.crmIdempotencyEnabled = true)
    (tasks : List CrmTaskRequest) : gateway.RerunReuses tasks tasks := by
  intro calls calls' hcalls hcalls' w outcomes w₁ w₂ hrun hkeep
  obtain ⟨-, hstored⟩ := createTasks_stores henabled hrun
  apply run_createTasks_of_storedAs henabled
  rw [hcalls', ← hcalls]
  exact hstored.imp fun _ _ h => h.mono hkeep

end MarketplacePipeline.AmoCrmGateway
