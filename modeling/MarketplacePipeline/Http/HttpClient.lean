import MarketplacePipeline.Python.Error

/-!
# The HTTP client

`_request` of `HttpClient.get` and `HttpClient.post` makes one attempt and raises for every answer
that is not a success; `retry` is the decorator around it, for GET and POST alike.  The waits
between two attempts have no effect and are left out.
-/

namespace MarketplacePipeline

/-- What an attempt comes back with. -/
inductive HttpAnswer (β : Type)
  /-- A response: `message` is the text of its `raise_for_status()`. -/
  | response (status : ℕ) (body : β) (message : Str)
  /-- An exception that `httpx` raises. -/
  | raised (exc : PyError)

namespace HttpClient

variable {β W α : Type}

/-- `RateLimitError(response)`. -/
def rateLimitError : PyError := ⟨.rateLimit, "Rate limited: HTTP 429".toList⟩

/-- The end of `_request`: the check for 429 and `response.raise_for_status()`. -/
def checkAnswer : HttpAnswer β → Except PyError β
  | .response status body message =>
    if status = 429 then .error rateLimitError
    else if 200 ≤ status ∧ status ≤ 299 then .ok body
    else .error ⟨.httpStatus, message⟩
  | .raised exc => .error exc

/-- `retry_if_exception_type((RateLimitError, httpx.TransportError))`. -/
def isRetryable (exc : PyError) : Bool := exc.kind = .rateLimit ∨ exc.kind = .transport

/-- Attempt number `attempt` (from 0), and at most `more` after it. -/
def retryFrom (request : ℕ → EStateM PyError W α) : (more attempt : ℕ) → EStateM PyError W α
  | 0, attempt => request attempt
  | more + 1, attempt =>
    tryCatch (request attempt) fun exc =>
      if isRetryable exc then retryFrom request more (attempt + 1) else throw exc

/-- `retry(reraise=True, stop=stop_after_attempt(max_retries), ...)`. -/
def retry (maxRetries : ℤ) (request : ℕ → EStateM PyError W α) : EStateM PyError W α :=
  retryFrom request (maxRetries - 1).toNat 0

theorem run_retryFrom_zero (request : ℕ → EStateM PyError W α) (attempt : ℕ) (w : W) :
    (retryFrom request 0 attempt).run w = (request attempt).run w := rfl

/-- A success or a fatal exception ends the attempts, a retryable one leads to the next. -/
theorem run_retryFrom_succ (request : ℕ → EStateM PyError W α) (more attempt : ℕ) (w : W) :
    (retryFrom request (more + 1) attempt).run w =
      match (request attempt).run w with
      | .ok a w' => .ok a w'
      | .error exc w' =>
        if isRetryable exc then (retryFrom request more (attempt + 1)).run w'
        else .error exc w' := by
  show EStateM.tryCatch (request attempt) _ w = _
  unfold EStateM.tryCatch
  rw [EStateM.run]
  cases request attempt w with
  | ok a w' => rfl
  | error exc w' =>
    by_cases h : isRetryable exc = true
    · simp only [h, if_true]
      rfl
    · simp only [h]
      rfl

/-! ### Requests without effects -/

/-- What the attempts from `attempt` on come to, if they have no effect. -/
def answerFrom (answers : ℕ → Except PyError α) : (more attempt : ℕ) → Except PyError α
  | 0, attempt => answers attempt
  | more + 1, attempt =>
    match answers attempt with
    | .ok a => .ok a
    | .error exc => if isRetryable exc then answerFrom answers more (attempt + 1) else .error exc

theorem run_retryFrom_liftResult (answers : ℕ → Except PyError α) (more attempt : ℕ) (w : W) :
    (retryFrom (fun attempt => liftResult (answers attempt)) more attempt).run w =
      (liftResult (answerFrom answers more attempt)).run w := by
  induction more generalizing attempt with
  | zero => rfl
  | succ more ih =>
    rw [run_retryFrom_succ]
    unfold answerFrom
    cases answers attempt with
    | ok a => rfl
    | error exc =>
      simp only [run_liftResult_error]
      by_cases hretry : isRetryable exc = true
      · rw [if_pos hretry, if_pos hretry, ih]
      · rw [if_neg hretry, if_neg hretry, run_liftResult_error]

/-- The attempts raise only what one of them raises. -/
theorem onlyExceptions_answerFrom {answers : ℕ → Except PyError α}
    (h : ∀ attempt, OnlyExceptions (answers attempt)) (more attempt : ℕ) :
    OnlyExceptions (answerFrom answers more attempt) := by
  induction more generalizing attempt with
  | zero => exact h attempt
  | succ more ih =>
    unfold answerFrom
    cases hanswer : answers attempt with
    | ok a => exact onlyExceptions_ok a
    | error exc =>
      dsimp only
      split_ifs
      · exact ih (attempt + 1)
      · rw [← hanswer]
        exact h attempt

theorem exists_of_answerFrom {answers : ℕ → Except PyError α} {more attempt : ℕ} {a : α}
    (h : answerFrom answers more attempt = .ok a) : ∃ attempt, answers attempt = .ok a := by
  induction more generalizing attempt with
  | zero => exact ⟨attempt, h⟩
  | succ more ih =>
    unfold answerFrom at h
    cases hanswer : answers attempt with
    | ok a' =>
      rw [hanswer] at h
      exact ⟨attempt, hanswer.trans h⟩
    | error exc =>
      rw [hanswer] at h
      dsimp only at h
      split_ifs at h
      exact ih h

/-- Retryable failures in front of a success are not seen. -/
theorem answerFrom_of_retries {answers : ℕ → Except PyError α} {a : α} {failures more : ℕ}
    (attempt : ℕ) (hmore : failures ≤ more)
    (hfailures : ∀ i < failures, ∃ exc, answers (attempt + i) = .error exc ∧ isRetryable exc = true)
    (h : answers (attempt + failures) = .ok a) : answerFrom answers more attempt = .ok a := by
  induction failures generalizing more attempt with
  | zero =>
    rw [Nat.add_zero] at h
    cases more with
    | zero => exact h
    | succ more => rw [answerFrom, h]
  | succ failures ih =>
    obtain ⟨more, rfl⟩ : ∃ m, more = m + 1 := Nat.exists_eq_add_one.mpr (by omega)
    obtain ⟨exc, hexc, hretry⟩ := hfailures 0 (Nat.succ_pos failures)
    rw [Nat.add_zero] at hexc
    rw [answerFrom, hexc]
    dsimp only
    rw [if_pos hretry]
    refine ih _ (by omega) (fun i hi => ?_) (by rw [← h]; congr 1; omega)
    obtain ⟨exc', hexc', hretry'⟩ := hfailures (i + 1) (by omega)
    exact ⟨exc', by rw [← hexc']; congr 1; omega, hretry'⟩

theorem exists_of_checkAnswer {answer : HttpAnswer β} {body : β}
    (h : checkAnswer answer = .ok body) :
    ∃ status message, answer = .response status body message := by
  unfold checkAnswer at h
  cases answer with
  | response status body' message =>
    dsimp only at h
    split_ifs at h
    obtain rfl := Except.ok.inj h
    exact ⟨status, message, rfl⟩
  | raised exc => cases h

theorem onlyExceptions_checkAnswer {answer : HttpAnswer β}
    (h : ∀ exc, answer = .raised exc → exc.isException = true) :
    OnlyExceptions (checkAnswer answer) := by
  intro exc herror
  unfold checkAnswer at herror
  cases answer with
  | response status body message =>
    dsimp only at herror
    split_ifs at herror <;> cases herror <;> rfl
  | raised exc' =>
    cases herror
    exact h exc rfl

end HttpClient

end MarketplacePipeline
