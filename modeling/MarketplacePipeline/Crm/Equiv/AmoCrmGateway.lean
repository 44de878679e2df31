import MarketplacePipeline.Crm.CreateTaskCalls
import MarketplacePipeline.Crm.Equiv.IdempotencyPolicy

/-!
# What the calls of the gateway do

The programs of the gateway by what they do to the world: the lookups only read and send GETs
(`ReadsOnly`), a search at least one (`SendsGet`), against an account that serves its tasks in pages
they find the first task that decodes to the key (`run_findRemoteTaskByMarker`), and the attempts of
a POST create what the account says (`run_httpPost`).
-/

namespace MarketplacePipeline

/-- The request is a GET. -/
def CrmRequest.isGet : CrmRequest → Bool
  | .getTasks .. => true
  | .postTask .. => false

/-- The account answers every request for a page with the 250 tasks of that page. -/
def AmoCrm.ServesPages (crm : AmoCrm) : Prop :=
  ∀ page attempt tasks, HttpClient.checkAnswer (crm.getTasks page attempt tasks) =
    .ok (.ok ((tasks.drop ((page - 1) * 250)).take 250))

namespace AmoCrmGateway

open IdempotencyPolicy HttpClient

variable {σ α β : Type} (gateway : AmoCrmGateway σ) (crm : AmoCrm)

/-! ### Programs that only read -/

/-- The program leaves the store and the account alone and sends only GETs. -/
def ReadsOnly (m : CrmM σ α) : Prop :=
  ∀ w, ∃ gets, (∀ r ∈ gets, CrmRequest.isGet r = true) ∧
    worldAfter (m.run w) = { w with requests := w.requests ++ gets }

theorem ReadsOnly.pure (a : α) : ReadsOnly (Pure.pure a : CrmM σ α) := fun w =>
  ⟨[], by simp, by simp [worldAfter]⟩

theorem ReadsOnly.liftResult (r : Except PyError α) :
    ReadsOnly (MarketplacePipeline.liftResult r : CrmM σ α) := fun w => by
  cases r <;> exact ⟨[], by simp, by simp [worldAfter]⟩

theorem ReadsOnly.bind {m : CrmM σ α} {f : α → CrmM σ β} (hm : ReadsOnly m)
    (hf : ∀ a, ReadsOnly (f a)) : ReadsOnly (m >>= f) := by
  intro w
  obtain ⟨gets, hgets, hw⟩ := hm w
  rw [EStateM.run_bind]
  cases hrun : m.run w with
  | error exc w' =>
    rw [hrun] at hw
    exact ⟨gets, hgets, hw⟩
  | ok a w' =>
    rw [hrun] at hw
    obtain ⟨gets', hgets', hw'⟩ := hf a w'
    refine ⟨gets ++ gets', ?_, ?_⟩
    · intro r hr
      rcases List.mem_append.mp hr with h | h
      · exact hgets r h
      · exact hgets' r h
    · rw [show w' = { w with requests := w.requests ++ gets } from hw] at hw'
      rw [show w' = { w with requests := w.requests ++ gets } from hw]
      simpa using hw'

theorem ReadsOnly.retryFrom {request : ℕ → CrmM σ α} (h : ∀ k, ReadsOnly (request k))
    (more attempt : ℕ) : ReadsOnly (HttpClient.retryFrom request more attempt) := by
  induction more generalizing attempt with
  | zero => exact h attempt
  | succ more ih =>
    intro w
    obtain ⟨gets, hgets, hw⟩ := h attempt w
    rw [run_retryFrom_succ]
    cases hrun : (request attempt).run w with
    | ok a w' =>
      rw [hrun] at hw
      exact ⟨gets, hgets, hw⟩
    | error exc w' =>
      rw [hrun] at hw
      by_cases hexc : isRetryable exc = true
      · obtain ⟨gets', hgets', hw'⟩ := ih (attempt + 1) w'
        refine ⟨gets ++ gets', ?_, ?_⟩
        · intro r hr
          rcases List.mem_append.mp hr with h' | h'
          · exact hgets r h'
          · exact hgets' r h'
        · simp only [hexc, if_true]
          rw [show w' = { w with requests := w.requests ++ gets } from hw] at hw' ⊢
          simpa using hw'
      · simp only [hexc]
        exact ⟨gets, hgets, hw⟩

/-! ### Programs that send a request -/

/-- The program reads only, and sends at least one GET. -/
def SendsGet (m : CrmM σ α) : Prop :=
  ∀ w, ∃ gets, gets ≠ [] ∧ (∀ r ∈ gets, CrmRequest.isGet r = true) ∧
    worldAfter (m.run w) = { w with requests := w.requests ++ gets }

theorem SendsGet.readsOnly {m : CrmM σ α} (h : SendsGet m) : ReadsOnly m := by
  intro w
  obtain ⟨gets, -, hgets, hw⟩ := h w
  exact ⟨gets, hgets, hw⟩

theorem SendsGet.bind {m : CrmM σ α} {f : α → CrmM σ β} (hm : SendsGet m)
    (hf : ∀ a, ReadsOnly (f a)) : SendsGet (m >>= f) := by
  intro w
  obtain ⟨gets, hne, hgets, hw⟩ := hm w
  rw [EStateM.run_bind]
  cases hrun : m.run w with
  | error exc w' =>
    rw [hrun] at hw
    exact ⟨gets, hne, hgets, hw⟩
  | ok a w' =>
    rw [hrun] at hw
    obtain rfl : w' = { w with requests := w.requests ++ gets } := hw
    obtain ⟨gets', hgets', hw'⟩ := hf a { w with requests := w.requests ++ gets }
    refine ⟨gets ++ gets', by simp [hne], ?_, by simpa using hw'⟩
    intro r hr
    rcases List.mem_append.mp hr with h | h
    · exact hgets r h
    · exact hgets' r h

/-- Whatever comes of it, the first attempt is made. -/
theorem SendsGet.retryFrom {request : ℕ → CrmM σ α} (h : ∀ k, SendsGet (request k))
    (more attempt : ℕ) : SendsGet (HttpClient.retryFrom request more attempt) := by
  cases more with
  | zero => exact h attempt
  | succ more =>
    intro w
    obtain ⟨gets, hne, hgets, hw⟩ := h attempt w
    rw [run_retryFrom_succ]
    cases hrun : (request attempt).run w with
    | ok a w' =>
      rw [hrun] at hw
      exact ⟨gets, hne, hgets, hw⟩
    | error exc w' =>
      rw [hrun] at hw
      by_cases hexc : isRetryable exc = true
      · obtain rfl : w' = { w with requests := w.requests ++ gets } := hw
        obtain ⟨gets', hgets', hw'⟩ :=
          ReadsOnly.retryFrom (fun k => (h k).readsOnly) more (attempt + 1)
            { w with requests := w.requests ++ gets }
        simp only [hexc, if_true]
        refine ⟨gets ++ gets', by simp [hne], ?_, by simpa using hw'⟩
        intro r hr
        rcases List.mem_append.mp hr with h' | h'
        · exact hgets r h'
        · exact hgets' r h'
      · simp only [hexc]
        exact ⟨gets, hne, hgets, hw⟩

theorem sendsGet_httpGet (page : ℕ) : SendsGet (gateway.httpGet crm page) := by
  refine SendsGet.retryFrom (fun attempt w => ?_) _ _
  refine ⟨[.getTasks gateway.url gateway.authorization page], by simp,
    by simp [CrmRequest.isGet], ?_⟩
  cases h : checkAnswer (crm.getTasks page attempt w.tasks) <;>
    simp [EStateM.run_bind, h, worldAfter]

/-- A search requests its next page, and goes on from there. -/
theorem sendsGet_findFrom {key : Str} {remaining : ℕ}
    (hrest : ∀ page, ReadsOnly (gateway.findFrom crm key remaining page)) (page : ℕ) :
    SendsGet (gateway.findFrom crm key (remaining + 1) page) := by
  rw [findFrom]
  refine (gateway.sendsGet_httpGet crm page).bind fun answer => ?_
  refine (ReadsOnly.liftResult answer).bind fun tasks => ?_
  split
  · exact ReadsOnly.pure none
  · split
    · exact ReadsOnly.pure _
    · split
      · exact ReadsOnly.pure none
      · exact hrest (page + 1)

theorem readsOnly_findFrom (key : Str) (remaining page : ℕ) :
    ReadsOnly (gateway.findFrom crm key remaining page) := by
  induction remaining generalizing page with
  | zero => exact ReadsOnly.pure none
  | succ remaining ih => exact (gateway.sendsGet_findFrom crm ih page).readsOnly

theorem sendsGet_findRemoteTaskByMarker (key : Str) :
    SendsGet (gateway.findRemoteTaskByMarker crm key) :=
  gateway.sendsGet_findFrom crm (gateway.readsOnly_findFrom crm key 4) 1

/-! ### The search in an account that serves its pages -/

/-- The requests for `n` pages from `page` on. -/
def pageRequests (page n : ℕ) : List CrmRequest :=
  (List.range' page n).map (.getTasks gateway.url gateway.authorization)

theorem isGet_of_mem_pageRequests {page n : ℕ} {r : CrmRequest}
    (h : r ∈ gateway.pageRequests page n) : r.isGet = true := by
  obtain ⟨_, -, rfl⟩ := List.mem_map.mp h
  rfl

theorem pageRequests_succ (page n : ℕ) : gateway.pageRequests page (n + 1) =
    .getTasks gateway.url gateway.authorization page :: gateway.pageRequests (page + 1) n := by
  rw [pageRequests, List.range'_succ]
  rfl

variable {crm}

/-- One page is one request. -/
theorem run_httpGet (hserves : crm.ServesPages) (page : ℕ) (w : CrmWorld σ) :
    (gateway.httpGet crm (page + 1)).run w =
      .ok (.ok ((w.tasks.drop (page * 250)).take 250))
        { w with requests := w.requests ++ gateway.pageRequests (page + 1) 1 } := by
  have hanswer : ∀ attempt, checkAnswer (crm.getTasks (page + 1) attempt w.tasks) =
      .ok (.ok ((w.tasks.drop (page * 250)).take 250)) := fun attempt => by
    rw [hserves]
    rfl
  rw [httpGet, retry]
  cases (gateway.settings.httpMaxRetries - 1).toNat with
  | zero => simp [run_retryFrom_zero, EStateM.run_bind, hanswer, pageRequests]
  | succ more => simp [run_retryFrom_succ, EStateM.run_bind, hanswer, pageRequests]

/-- A page of the account, from 0. -/
def pageOf (tasks : List RemoteTask) (page : ℕ) : List RemoteTask :=
  (tasks.drop (page * 250)).take 250

/-- A page with which a search ends: it is not full, or it has a task that decodes to the key. -/
def EndsSearch (key : Str) (tasks : List RemoteTask) : Prop :=
  tasks.length < 250 ∨ ∃ item ∈ tasks, extractIdempotencyMarker item.text = some key

/-- A search of at most `remaining` pages requests `n` of them: up to the first page with which it
ends, if there is one. -/
structure Requested (key : Str) (tasks : List RemoteTask) (remaining page n : ℕ) : Prop where
  le : n ≤ remaining
  goesOn : ∀ k, k + 1 < n → ¬ EndsSearch key (pageOf tasks (page + k))
  ends : n < remaining → ∃ k, n = k + 1 ∧ EndsSearch key (pageOf tasks (page + k))

theorem requested_zero (key : Str) (tasks : List RemoteTask) (page : ℕ) :
    Requested key tasks 0 page 0 :=
  ⟨le_rfl, fun k hk => absurd hk (by omega), fun h => absurd h (by omega)⟩

/-- The first page ends the search. -/
theorem requested_one {key : Str} {tasks : List RemoteTask} {page : ℕ} (remaining : ℕ)
    (h : EndsSearch key (pageOf tasks page)) : Requested key tasks (remaining + 1) page 1 :=
  ⟨by omega, fun k hk => absurd hk (by omega), fun _ => ⟨0, rfl, h⟩⟩

/-- The first page does not end it. -/
theorem Requested.succ {key : Str} {tasks : List RemoteTask} {remaining page n : ℕ}
    (hpage : ¬ EndsSearch key (pageOf tasks page))
    (h : Requested key tasks remaining (page + 1) n) :
    Requested key tasks (remaining + 1) page (n + 1) := by
  refine ⟨by have hle := h.le; omega, ?_, ?_⟩
  · intro k hk
    cases k with
    | zero => exact hpage
    | succ k =>
      rw [← Nat.add_assoc, Nat.add_right_comm]
      exact h.goesOn k (by omega)
  · intro hlt
    obtain ⟨k, rfl, hends⟩ := h.ends (by omega)
    refine ⟨k + 1, rfl, ?_⟩
    rw [← Nat.add_assoc, Nat.add_right_comm]
    exact hends

/-- The search from a page on finds the first hit in the rest of the account. -/
theorem run_findFrom (hserves : crm.ServesPages) (key : Str) (remaining page : ℕ)
    (w : CrmWorld σ) :
    ∃ n, Requested key w.tasks remaining page n ∧
      (gateway.findFrom crm key remaining (page + 1)).run w =
        .ok ((((w.tasks.drop (page * 250)).take (remaining * 250)).find?
          fun item => extractIdempotencyMarker item.text = some key).map RemoteTask.id)
          { w with requests := w.requests ++ gateway.pageRequests (page + 1) n } := by
  -- on the pages that may still be asked for; nothing is created while they are read
  induction remaining generalizing page w with
  | zero => exact ⟨0, requested_zero key w.tasks page, by simp [findFrom, pageRequests]⟩
  | succ remaining ih =>
    have hsplit : (w.tasks.drop (page * 250)).take ((remaining + 1) * 250) =
        (w.tasks.drop (page * 250)).take 250 ++
          (w.tasks.drop ((page + 1) * 250)).take (remaining * 250) := by
      rw [show (remaining + 1) * 250 = 250 + remaining * 250 by omega, List.take_add,
        List.drop_drop, show page * 250 + 250 = (page + 1) * 250 by omega]
    rw [findFrom, EStateM.run_bind, run_httpGet gateway hserves page w, hsplit,
      List.find?_append]
    simp only [EStateM.run_bind, run_liftResult_ok]
    by_cases hempty : (w.tasks.drop (page * 250)).take 250 = []
    · -- behind an empty page there are no more tasks
      have hrest : w.tasks.drop ((page + 1) * 250) = [] := by
        have hnil : w.tasks.drop (page * 250) = [] := by simpa using hempty
        rw [show (page + 1) * 250 = page * 250 + 250 by omega, ← List.drop_drop, hnil,
          List.drop_nil]
      have hends : EndsSearch key (pageOf w.tasks page) := by
        left
        rw [pageOf, hempty]
        simp
      rw [if_pos hempty, hempty, hrest]
      exact ⟨1, requested_one remaining hends, by simp⟩
    · rw [if_neg hempty]
      cases hfind : ((w.tasks.drop (page * 250)).take 250).find?
          fun item => extractIdempotencyMarker item.text = some key with
      | some item =>
        have hhit : extractIdempotencyMarker item.text = some key := by
          simpa using List.find?_some hfind
        have hends : EndsSearch key (pageOf w.tasks page) :=
          Or.inr ⟨item, List.mem_of_find?_eq_some hfind, hhit⟩
        exact ⟨1, requested_one remaining hends, by simp⟩
      | none =>
        have hmiss : ∀ item ∈ pageOf w.tasks page,
            extractIdempotencyMarker item.text ≠ some key := by
          intro item hitem
          simpa using List.find?_eq_none.mp hfind item hitem
        by_cases hshort : ((w.tasks.drop (page * 250)).take 250).length < 250
        · -- nor behind a page that is not full
          have hrest : w.tasks.drop ((page + 1) * 250) = [] := by
            rw [List.length_take, List.length_drop] at hshort
            exact List.drop_eq_nil_of_le (by omega)
          simp only [if_pos hshort, hrest]
          exact ⟨1, requested_one remaining (Or.inl hshort), by simp⟩
        · simp only [if_neg hshort]
          have hgoes : ¬ EndsSearch key (pageOf w.tasks page) := by
            rintro (hlt | ⟨item, hitem, hhit⟩)
            · exact hshort hlt
            · exact hmiss item hitem hhit
          obtain ⟨n, hrequested, hn⟩ := ih (page + 1)
            { w with requests := w.requests ++ gateway.pageRequests (page + 1) 1 }
          refine ⟨n + 1, hrequested.succ hgoes, ?_⟩
          rw [hn, pageRequests_succ gateway (page + 1) n, pageRequests_succ gateway (page + 1) 0]
          simp [pageRequests]

theorem run_findRemoteTaskByMarker (hserves : crm.ServesPages) (key : Str) (w : CrmWorld σ) :
    ∃ n, (gateway.findRemoteTaskByMarker crm key).run w =
      .ok ((findTask key w.tasks).map RemoteTask.id)
        { w with requests := w.requests ++ gateway.pageRequests 1 n } := by
  obtain ⟨n, -, hn⟩ := gateway.run_findFrom hserves key 5 0 w
  exact ⟨n, by simpa [findRemoteTaskByMarker, findTask] using hn⟩

/-! ### The attempts of a POST -/

/-- The world after a POST attempt. -/
def afterAttempt (payload : TaskPayload) (attempt : PostAttempt) (w : CrmWorld σ) : CrmWorld σ :=
  let created := attempt.created.map fun id => RemoteTask.mk id payload.text
  { w with
    tasks := created.toList ++ w.tasks
    requests := w.requests ++ [.postTask gateway.url gateway.authorization payload created] }

variable (crm) (payload : TaskPayload)

theorem run_postAttempt (attempt : ℕ) (w : CrmWorld σ) :
    (gateway.postAttempt crm payload attempt).run w =
      match checkAnswer (crm.postTask attempt).answer with
      | .ok body => .ok body (gateway.afterAttempt payload (crm.postTask attempt) w)
      | .error exc => .error exc (gateway.afterAttempt payload (crm.postTask attempt) w) := by
  rw [postAttempt, EStateM.run_bind]
  cases h : checkAnswer (crm.postTask attempt).answer <;> simp [afterAttempt]

/-- The attempts that are made from `attempt` on, `more` of them at most after the first. -/
def attemptsFrom : (more attempt : ℕ) → List PostAttempt
  | 0, attempt => [crm.postTask attempt]
  | more + 1, attempt =>
    crm.postTask attempt ::
      match checkAnswer (crm.postTask attempt).answer with
      | .ok _ => []
      | .error exc => if isRetryable exc then attemptsFrom more (attempt + 1) else []

/-- What they come back with: the answer to the last one. -/
def answerFrom : (more attempt : ℕ) → Except PyError (Except PyError PostBody)
  | 0, attempt => checkAnswer (crm.postTask attempt).answer
  | more + 1, attempt =>
    match checkAnswer (crm.postTask attempt).answer with
    | .ok body => .ok body
    | .error exc => if isRetryable exc then answerFrom more (attempt + 1) else .error exc

theorem run_retryFrom_postAttempt (more attempt : ℕ) (w : CrmWorld σ) :
    (retryFrom (gateway.postAttempt crm payload) more attempt).run w =
      let w' :=
        (attemptsFrom crm more attempt).foldl (fun w a => gateway.afterAttempt payload a w) w
      match answerFrom crm more attempt with
      | .ok body => .ok body w'
      | .error exc => .error exc w' := by
  -- an attempt may create its task and raise nevertheless, so that each one is kept in the fold
  induction more generalizing attempt w with
  | zero => exact gateway.run_postAttempt crm payload attempt w
  | succ more ih =>
    rw [run_retryFrom_succ, run_postAttempt, attemptsFrom, answerFrom]
    cases checkAnswer (crm.postTask attempt).answer with
    | ok body => rfl
    | error exc =>
      by_cases hexc : isRetryable exc = true
      · simp only [hexc, if_true, ih]
        rfl
      · simp only [hexc]
        rfl

/-- All attempts of the POST of a call. -/
def attempts (maxRetries : ℤ) : List PostAttempt := attemptsFrom crm (maxRetries - 1).toNat 0

/-- What the POST of a call comes back with. -/
def postAnswer (maxRetries : ℤ) : Except PyError (Except PyError PostBody) :=
  answerFrom crm (maxRetries - 1).toNat 0

/-- The tasks that a list of attempts creates, in the order of the attempts. -/
def createdBy (attempts : List PostAttempt) : List RemoteTask :=
  attempts.filterMap fun a => a.created.map fun id => RemoteTask.mk id payload.text

theorem createdBy_eq_map (attempts : List PostAttempt) :
    createdBy payload attempts =
      (attempts.filterMap PostAttempt.created).map fun id => RemoteTask.mk id payload.text := by
  rw [createdBy, List.map_filterMap]

theorem length_createdBy (attempts : List PostAttempt) :
    (createdBy payload attempts).length = (attempts.filterMap PostAttempt.created).length := by
  rw [createdBy_eq_map, List.length_map]

/-- The requests that a list of attempts sends. -/
def postsOf (attempts : List PostAttempt) : List CrmRequest :=
  attempts.map fun a => .postTask gateway.url gateway.authorization payload
    (a.created.map fun id => RemoteTask.mk id payload.text)

theorem foldl_afterAttempt (as : List PostAttempt) (w : CrmWorld σ) :
    as.foldl (fun w a => gateway.afterAttempt payload a w) w =
      { w with
        tasks := (createdBy payload as).reverse ++ w.tasks
        requests := w.requests ++ gateway.postsOf payload as } := by
  induction as generalizing w with
  | nil => simp [createdBy, postsOf]
  | cons a as ih =>
    rw [List.foldl_cons, ih]
    cases h : a.created <;> simp [afterAttempt, createdBy, postsOf, h]

/-- The spec of a POST: it creates what its attempts create, and sends one request for each. -/
theorem run_httpPost (w : CrmWorld σ) :
    (gateway.httpPost crm payload).run w =
      let w' := { w with
        tasks := (createdBy payload (attempts crm gateway.settings.httpMaxRetries)).reverse ++
          w.tasks
        requests := w.requests ++
          gateway.postsOf payload (attempts crm gateway.settings.httpMaxRetries) }
      match postAnswer crm gateway.settings.httpMaxRetries with
      | .ok body => .ok body w'
      | .error exc => .error exc w' := by
  rw [httpPost, retry, run_retryFrom_postAttempt, foldl_afterAttempt]
  rfl

end AmoCrmGateway

end MarketplacePipeline
