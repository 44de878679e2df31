import MarketplacePipeline.Crm.CallHistory
import MarketplacePipeline.Crm.Equiv.CreateTask

/-!
# Calls against an account that serves its pages

When the account answers the search page by page, a call is determined by the first task that
decodes to its key (`findTask`), which the search finds in five requests at most (`search_correct`).
`reuses_iff` says when a task that was posted is found again by a call whose store has lost it, and
`one_created_iff` when the attempts of one POST create one task at most.
-/

namespace MarketplacePipeline.AmoCrmGateway

open IdempotencyPolicy HttpClient

variable {σ : Type} (gateway : AmoCrmGateway σ) {crm : AmoCrm}

/-! ### The key and the marker of a task -/

/-- The text of a task before the marker is appended. -/
def bodyText (task : CrmTaskRequest) : Str := task.title ++ "\n\n".toList ++ task.description

/-- A digest does not contain the bracket that closes a marker. -/
theorem bracket_not_mem_keyOf (task : CrmTaskRequest) : ']' ∉ gateway.keyOf task := fun h => by
  have hhex := gateway.sha256.hex _ _ h
  revert hhex
  decide

/-- The text that was posted is read back exactly when the marker is readable in the task. -/
theorem extract_payloadOf_iff (crm : AmoCrm) (task : CrmTaskRequest) :
    extractIdempotencyMarker (gateway.payloadOf crm task).text = some (gateway.keyOf task) ↔
      MarkerReadable (gateway.keyOf task) (bodyText task) :=
  extract_append_iff (gateway.bracket_not_mem_keyOf task)

/-- A task that a call created carries the text that the call posted. -/
theorem text_of_mem_created {task : CrmTaskRequest} {w : CrmWorld σ} {posted : RemoteTask}
    (h : posted ∈ (gateway.callRecord crm task w).created) :
    posted.text = (gateway.payloadOf crm task).text := by
  rcases gateway.created_callRecord crm task w with hnone | hsome
  · rw [hnone] at h
    cases h
  · rw [hsome] at h
    obtain ⟨attempt, -, hattempt⟩ := List.mem_filterMap.mp h
    obtain ⟨id, -, rfl⟩ := Option.map_eq_some_iff.mp hattempt
    rfl

/-! ### The search -/

/-- **What the search does**: it returns the id of the first task of the account that decodes to the
key, among the first 1250, and it requests the pages from 1 on, five at most, up to the first one
that is not full or has that task. -/
theorem search_correct (hserves : crm.ServesPages) (key : Str) (w : CrmWorld σ) :
    ∃ n, Requested key w.tasks 5 0 n ∧
      (gateway.findRemoteTaskByMarker crm key).run w =
        .ok (((w.tasks.take 1250).find?
          fun item => extractIdempotencyMarker item.text = some key).map RemoteTask.id)
          { w with requests := w.requests ++ gateway.pageRequests 1 n } := by
  obtain ⟨n, hrequested, hn⟩ := gateway.run_findFrom hserves key 5 0 w
  exact ⟨n, hrequested, by simpa [findRemoteTaskByMarker] using hn⟩

/-- The second task carries a marker. -/
def markedTasks : List RemoteTask :=
  [⟨"1".toList, "Call back".toList⟩,
    ⟨"7".toList, appendIdempotencyMarker "T".toList "ab12".toList⟩]

theorem search_correct_marked :
    ∃ n, Requested "ab12".toList markedTasks 5 0 n ∧
      (liveGateway.findRemoteTaskByMarker (pagedAccount fun _ => returned "9".toList)
          "ab12".toList).run (accountOf markedTasks) =
        .ok (((markedTasks.take 1250).find?
          fun item => extractIdempotencyMarker item.text = some "ab12".toList).map RemoteTask.id)
          { accountOf markedTasks with requests := liveGateway.pageRequests 1 n } :=
  liveGateway.search_correct (fun _ _ _ => rfl) "ab12".toList (accountOf markedTasks)

section Search

variable {task : CrmTaskRequest} {w : CrmWorld σ}

/-- A call that finds a task in the account reuses it, and sends only GETs. -/
theorem run_createTask_of_findTask (hserves : crm.ServesPages)
    (henabled : gateway.settings.crmIdempotencyEnabled = true)
    (hlive : gateway.settings.mockCrm = false)
    (hmiss : gateway.store.get (gateway.keyOf task) w.store = none) {item : RemoteTask}
    (hfind : findTask (gateway.keyOf task) w.tasks = some item) :
    ∃ n, (gateway.createTask crm task).run w = .ok (gateway.reusedOutcome task item.id)
      { w with
        store := gateway.stored (gateway.keyOf task)
          (foundRecord crm (gateway.keyOf task) item.id) w.store
        requests := w.requests ++ gateway.pageRequests 1 n } := by
  obtain ⟨n, hn⟩ := gateway.run_findRemoteTaskByMarker hserves (gateway.keyOf task) w
  have hlookup : gateway.lookup (gateway.keyOf task) w.store = none := by
    rw [lookup, if_pos henabled, hmiss]
  have hexisting := run_findExisting_of_none gateway crm hlookup
  rw [if_pos ⟨henabled, hlive⟩, hn, hfind, Option.map_some] at hexisting
  exact ⟨n, run_createTask_of_found gateway crm hexisting⟩

/-- A call that finds no task, in the store or in the account, goes on to create one. -/
theorem run_findExisting_of_findTask_none (hserves : crm.ServesPages)
    (hmiss : gateway.store.get (gateway.keyOf task) w.store = none)
    (hfind : findTask (gateway.keyOf task) w.tasks = none) :
    ∃ gets, (∀ r ∈ gets, CrmRequest.isGet r = true) ∧
      (gateway.findExisting crm (gateway.keyOf task)).run w =
        .ok none { w with requests := w.requests ++ gets } := by
  have hlookup : gateway.lookup (gateway.keyOf task) w.store = none := by
    rw [lookup, hmiss, ite_self]
  have hexisting := run_findExisting_of_none gateway crm hlookup
  split_ifs at hexisting with hsearch
  · obtain ⟨n, hn⟩ := gateway.run_findRemoteTaskByMarker hserves (gateway.keyOf task) w
    rw [hn, hfind] at hexisting
    exact ⟨gateway.pageRequests 1 n, fun r hr => gateway.isGet_of_mem_pageRequests hr, hexisting⟩
  · exact ⟨[], by simp, by simpa using hexisting⟩

theorem reused_of_remoteOutcome {outcome : CrmTaskOutcome}
    (h : gateway.remoteOutcome crm task = .ok outcome) : outcome.reused = false := by
  unfold remoteOutcome at h
  split at h
  · cases h
  · cases h
  · split at h
    · cases h
    · rw [← Except.ok.inj h]

/-- A live call that finds no task does not reuse one. -/
theorem outcome_ne_reused (hlive : gateway.settings.mockCrm = false) {w' : CrmWorld σ}
    (h : (gateway.findExisting crm (gateway.keyOf task)).run w = .ok none w') (taskId : Str) :
    (gateway.callRecord crm task w).outcome ≠ .ok (gateway.reusedOutcome task taskId) := by
  rw [callRecord, run_createTask_of_not_found gateway crm h, if_neg (by simp [hlive])]
  by_cases hconfigured : gateway.Configured
  · rw [run_createRemoteTask gateway crm hconfigured]
    cases hout : gateway.remoteOutcome crm task with
    | error exc =>
      intro heq
      cases heq
    | ok outcome =>
      intro heq
      have hreused := gateway.reused_of_remoteOutcome hout
      rw [Except.ok.inj heq] at hreused
      cases hreused
  · rw [run_createRemoteTask_unconfigured gateway crm hconfigured]
    intro heq
    cases heq

end Search

/-! ### Finding a posted task again -/

/-- The first task that decodes to a key, where no other task has a marker prefix. -/
theorem findTask_of_others (key : Str) {pre post : List RemoteTask} {t : RemoteTask}
    (hlen : (pre ++ t :: post).length ≤ 1250)
    (hothers : ∀ t' ∈ pre ++ post, ¬ markerPrefix <:+: t'.text) :
    findTask key (pre ++ t :: post) =
      if extractIdempotencyMarker t.text = some key then some t else none := by
  have hnone : ∀ l : List RemoteTask, (∀ t' ∈ l, t' ∈ pre ++ post) →
      (l.find? fun item => extractIdempotencyMarker item.text = some key) = none := by
    intro l hl
    rw [List.find?_eq_none]
    intro t' ht'
    simp [extract_eq_none_of_no_marker (hothers t' (hl t' ht'))]
  rw [findTask, List.take_of_length_le hlen, List.find?_append, hnone pre (by simp_all),
    Option.none_or, List.find?_cons]
  split_ifs with h
  · simp [h]
  · simp [h, hnone post (by simp_all)]

/-- **When a posted task is found again**: a call whose store has no record of the key reuses the
task, without a POST, exactly when the marker is readable in the text of the task. -/
theorem reuses_iff (henabled : gateway.settings.crmIdempotencyEnabled = true)
    (hlive : gateway.settings.mockCrm = false) (earlier : AmoCrm) (task : CrmTaskRequest)
    (w₀ : CrmWorld σ) (posted : RemoteTask)
    (hposted : posted ∈ (gateway.callRecord earlier task w₀).created)
    (hserves : crm.ServesPages) {w : CrmWorld σ}
    (hempty : gateway.store.get (gateway.keyOf task) w.store = none) (pre post : List RemoteTask)
    (htasks : w.tasks = pre ++ posted :: post) (hlen : w.tasks.length ≤ 1250)
    (hothers : ∀ t ∈ pre ++ post, ¬ markerPrefix <:+: t.text) :
    ((gateway.callRecord crm task w).outcome = .ok (gateway.reusedOutcome task posted.id) ∧
        ∀ q ∈ (gateway.callRecord crm task w).requests, q.isGet = true) ↔
      MarkerReadable (gateway.keyOf task) (bodyText task) := by
  rw [← gateway.extract_payloadOf_iff earlier task, ← gateway.text_of_mem_created hposted]
  rw [htasks] at hlen
  have hfind := findTask_of_others (gateway.keyOf task) hlen hothers
  rw [← htasks] at hfind
  by_cases hread : extractIdempotencyMarker posted.text = some (gateway.keyOf task)
  · -- the posted task is the first hit of the search
    rw [if_pos hread] at hfind
    obtain ⟨n, hn⟩ :=
      gateway.run_createTask_of_findTask hserves henabled hlive hempty hfind
    refine iff_of_true ⟨?_, ?_⟩ hread
    · rw [callRecord, hn]
    · rw [CallRecord.requests, callRecord, hn]
      simp only [List.drop_left]
      exact fun q hq => gateway.isGet_of_mem_pageRequests hq
  · -- no task decodes to the key, and the call goes on to POST
    rw [if_neg hread] at hfind
    obtain ⟨gets, -, hnot⟩ := gateway.run_findExisting_of_findTask_none hserves hempty hfind
    exact iff_of_false (fun h => gateway.outcome_ne_reused hlive hnot posted.id h.1) hread

/-- A posted task that is found again behind a task of another kind. -/
theorem reuses_iff_plainTask :
    (liveGateway.callRecord (pagedAccount fun _ => returned "9".toList) plainTask
        (accountOf [⟨"1".toList, "Call back".toList⟩, ⟨"7".toList,
          (liveGateway.payloadOf (pagedAccount fun _ => returned "7".toList)
            plainTask).text⟩])).outcome =
        .ok (liveGateway.reusedOutcome plainTask "7".toList) ∧
      ∀ q ∈ (liveGateway.callRecord (pagedAccount fun _ => returned "9".toList) plainTask
        (accountOf [⟨"1".toList, "Call back".toList⟩, ⟨"7".toList,
          (liveGateway.payloadOf (pagedAccount fun _ => returned "7".toList)
            plainTask).text⟩])).requests, q.isGet = true :=
  (liveGateway.reuses_iff rfl rfl (pagedAccount fun _ => returned "7".toList) plainTask
    (accountOf []) ⟨"7".toList, _⟩ (by decide +kernel) (fun _ _ _ => rfl) rfl
    [⟨"1".toList, "Call back".toList⟩] [] rfl (by decide) (by decide)).mpr
    fun u rest h => absurd h.infix (by decide)

/-- A description that opens a marker hides the marker of the task: the task is posted again. -/
theorem not_reuses_openMarkerTask :
    ¬ ∀ (earlier crm : AmoCrm) (task : CrmTaskRequest)
      (w₀ w : CrmWorld (Str → Option IdempotencyRecord)) (posted : RemoteTask)
      (pre post : List RemoteTask), posted ∈ (liveGateway.callRecord earlier task w₀).created →
      crm.ServesPages → (∀ key, liveGateway.store.get key w.store = none) →
      w.tasks = pre ++ posted :: post → w.tasks.length ≤ 1250 →
      (∀ t ∈ pre ++ post, ¬ markerPrefix <:+: t.text) →
      (liveGateway.callRecord crm task w).outcome =
          .ok (liveGateway.reusedOutcome task posted.id) ∧
        ∀ q ∈ (liveGateway.callRecord crm task w).requests, q.isGet = true := by
  intro hall
  have hgets := (hall (pagedAccount fun _ => returned "7".toList)
    (pagedAccount fun _ => returned "9".toList) openMarkerTask (accountOf [])
    (accountOf [⟨"7".toList, (liveGateway.payloadOf
      (pagedAccount fun _ => returned "7".toList) openMarkerTask).text⟩])
    ⟨"7".toList, (liveGateway.payloadOf (pagedAccount fun _ => returned "7".toList)
      openMarkerTask).text⟩ [] [] (by decide +kernel) (fun _ _ _ => rfl) (fun _ => rfl) rfl
    (by decide) (by decide)).2
  revert hgets
  decide +kernel

/-! ### The tasks that one POST creates -/

/-- The attempt comes back with an error after which the client tries again. -/
def Retried (crm : AmoCrm) (attempt : ℕ) : Prop :=
  ∃ exc, checkAnswer (crm.postTask attempt).answer = .error exc ∧ isRetryable exc = true

/-- No attempt that is made after one that created a task creates another one: if all attempts
before attempt `j` were retried, and one of them created a task, then attempt `j` does not. -/
def NoRepeatedCreation (crm : AmoCrm) (maxRetries : ℤ) : Prop :=
  ∀ i j : ℕ, i < j → (j : ℤ) < maxRetries → (∀ k < j, Retried crm k) →
    (crm.postTask i).created.isSome = true → (crm.postTask j).created = none

section Attempts

variable (crm)

/-- The attempts that are made are the first ones, up to the first that is not retried. -/
theorem attemptsFrom_eq (more attempt : ℕ) :
    ∃ n, attemptsFrom crm more attempt = (List.range' attempt n).map crm.postTask ∧
      ∀ j, j < n ↔ j ≤ more ∧ ∀ k < j, Retried crm (attempt + k) := by
  induction more generalizing attempt with
  | zero =>
    refine ⟨1, rfl, fun j => ?_⟩
    rw [Nat.lt_one_iff, Nat.le_zero]
    exact ⟨fun h => ⟨h, by simp [h]⟩, And.left⟩
  | succ more ih =>
    by_cases hretried : Retried crm attempt
    · -- this attempt, then those from the next one on
      obtain ⟨n, hn, hlt⟩ := ih (attempt + 1)
      obtain ⟨exc, hanswer, hexc⟩ := id hretried
      refine ⟨n + 1, ?_, fun j => ?_⟩
      · rw [List.range'_succ, List.map_cons, ← hn]
        simp [attemptsFrom, hanswer, hexc]
      · cases j with
        | zero => simp
        | succ j =>
          rw [Nat.add_lt_add_iff_right, hlt, Nat.add_le_add_iff_right]
          refine and_congr_right fun _ => ⟨fun h k hk => ?_, fun h k hk => ?_⟩
          · cases k with
            | zero => exact hretried
            | succ k =>
              rw [show attempt + (k + 1) = attempt + 1 + k by omega]
              exact h k (by omega)
          · rw [show attempt + 1 + k = attempt + (k + 1) by omega]
            exact h (k + 1) (by omega)
    · -- this attempt is the last one
      refine ⟨1, ?_, fun j => ?_⟩
      · rw [attemptsFrom]
        cases hanswer : checkAnswer (crm.postTask attempt).answer with
        | ok body => rfl
        | error exc =>
          have hexc : ¬ isRetryable exc = true := fun hexc => hretried ⟨exc, hanswer, hexc⟩
          simp [hexc]
      · cases j with
        | zero => simp
        | succ j => exact iff_of_false (by omega) fun h => hretried (h.2 0 (by omega))

/-- A list has one hit at most exactly when no element after a hit is one. -/
theorem length_filterMap_le_one_iff {α β : Type} (f : α → Option β) (l : List α) :
    (l.filterMap f).length ≤ 1 ↔ l.Pairwise fun a b => (f a).isSome = true → f b = none := by
  induction l with
  | nil => simp
  | cons a l ih =>
    rw [List.pairwise_cons, ← ih]
    cases ha : f a with
    | none => simp [ha]
    | some b =>
      have hnil : (l.filterMap f).length = 0 ↔ ∀ c ∈ l, f c = none := by
        rw [List.length_eq_zero_iff, List.filterMap_eq_nil_iff]
      simp only [List.filterMap_cons, ha, List.length_cons, Option.isSome_some, true_implies,
        ← hnil]
      omega

theorem length_created_attempts_le_iff (maxRetries : ℤ) :
    ((attempts crm maxRetries).filterMap PostAttempt.created).length ≤ 1 ↔
      NoRepeatedCreation crm maxRetries := by
  obtain ⟨n, hn, hlt⟩ := attemptsFrom_eq crm (maxRetries - 1).toNat 0
  rw [attempts, hn, length_filterMap_le_one_iff, List.pairwise_map, List.pairwise_iff_getElem]
  simp only [List.length_range', List.getElem_range', Nat.one_mul, Nat.zero_add]
  simp only [Nat.zero_add] at hlt
  constructor
  · intro h i j hij hj hbefore
    have hjn : j < n := (hlt j).mpr ⟨by omega, hbefore⟩
    exact h i j (hij.trans hjn) hjn hij
  · intro h i j hi hj hij
    obtain ⟨hle, hbefore⟩ := (hlt j).mp hj
    exact h i j hij (by omega) hbefore

end Attempts

/-- **When one POST creates one task**: a live call on a key without a task creates one task at
most exactly when the credentials are missing, or no attempt creates a task after one that did. -/
theorem one_created_iff (hlive : gateway.settings.mockCrm = false) (hserves : crm.ServesPages)
    (task : CrmTaskRequest) (w : CrmWorld σ)
    (hmiss : gateway.store.get (gateway.keyOf task) w.store = none)
    (hremote : ∀ t ∈ w.tasks, extractIdempotencyMarker t.text ≠ some (gateway.keyOf task)) :
    (gateway.callRecord crm task w).created.length ≤ 1 ↔
      ¬ gateway.Configured ∨ NoRepeatedCreation crm gateway.settings.httpMaxRetries := by
  have hfind : findTask (gateway.keyOf task) w.tasks = none := by
    rw [findTask, List.find?_eq_none]
    intro t ht
    simpa using hremote t (List.mem_of_mem_take ht)
  obtain ⟨gets, isGet, hnot⟩ := gateway.run_findExisting_of_findTask_none hserves hmiss hfind
  by_cases hconfigured : gateway.Configured
  · rw [gateway.created_of_not_found crm hlive isGet hnot hconfigured, createdTasks,
      length_createdBy, length_created_attempts_le_iff, or_iff_right (not_not_intro hconfigured)]
  · refine iff_of_true ?_ (Or.inl hconfigured)
    have hrun := run_createTask_of_not_found gateway crm hnot
    rw [if_neg (by simp [hlive]), run_createRemoteTask_unconfigured gateway crm hconfigured]
      at hrun
    rw [CallRecord.created, CallRecord.requests, callRecord, hrun]
    simp [filterMap_created_of_isGet isGet]

/-- A POST whose first attempt is refused before a task is created. -/
theorem one_created_iff_refused :
    (liveGateway.callRecord (pagedAccount fun attempt =>
      if attempt = 0 then { created := none, answer := .response 429 (.ok ⟨[], []⟩) "429".toList }
      else returned "7".toList) plainTask (accountOf [])).created.length ≤ 1 :=
  (liveGateway.one_created_iff rfl (fun _ _ _ => rfl) plainTask (accountOf []) rfl
    (by simp [accountOf])).mpr (Or.inr fun i j hij _ hbefore hcreated => by
      -- only an attempt after the first creates a task, and it is not retried
      cases i with
      | zero => cases hcreated
      | succ i =>
        obtain ⟨exc, hanswer, -⟩ := hbefore (i + 1) hij
        cases hanswer)

/-- When the answer to an attempt is lost after it created the task, the next attempt creates a
second one. -/
theorem not_one_created_answerLost :
    ¬ ∀ (crm : AmoCrm) (task : CrmTaskRequest) (w : CrmWorld (Str → Option IdempotencyRecord)),
      crm.ServesPages → liveGateway.store.get (liveGateway.keyOf task) w.store = none →
      (∀ t ∈ w.tasks, extractIdempotencyMarker t.text ≠ some (liveGateway.keyOf task)) →
      (liveGateway.callRecord crm task w).created.length ≤ 1 := by
  intro hall
  have hle := hall
    (pagedAccount fun attempt => if attempt = 0 then answerLost "7".toList else returned "8".toList)
    plainTask (accountOf []) (fun _ _ _ => rfl) rfl (by simp [accountOf])
  revert hle
  decide +kernel

end MarketplacePipeline.AmoCrmGateway
