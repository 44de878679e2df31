import MarketplacePipeline.Http.OzonHttpClient
import Mathlib.Tactic.NormNum
import Mathlib.Tactic.Positivity

/-!
# One call of `get_composer_json`

`ComposerSpec` says what a call is for: it makes attempts, each on the next proxy, until one brings
a payload with `widgetStates` or a quota signal.  The loop is that, except that a response with a
2xx status whose body is not a JSON object leaves it with an exception that nothing handles, and so
does a wait that raises (`composerSpec_iff`).
-/

namespace MarketplacePipeline.OzonHttpClient

/-! ### Kinds of outcomes -/

namespace AttemptOutcome

/-- The payload, if it is a JSON object with `widgetStates`. -/
def payload? : AttemptOutcome → Option Json
  | .answered status _ (.ok (.dict fields)) =>
    if (200 ≤ status ∧ status ≤ 299) ∧
        ((fields.lookup "widgetStates".toList).getD .null).truthy = true then
      some (.dict fields)
    else none
  | _ => none

/-- A quota signal. -/
def isQuota (lower : Str → Str) : AttemptOutcome → Bool
  | .answered status _ _ => status = 402 ∨ status = 407
  | .transportError text _ => isProxyQuotaTransportError lower text
  | .otherError _ _ => false

/-- A success whose body is not a JSON object, or an exception that is not a transport error. -/
def isUnhandled : AttemptOutcome → Bool
  | .answered _ _ (.ok (.dict _)) => false
  | .answered status _ _ => 200 ≤ status ∧ status ≤ 299
  | .transportError _ _ => false
  | .otherError _ _ => true

/-- A failed attempt without a quota signal. -/
def Failed (lower : Str → Str) (outcome : AttemptOutcome) : Prop :=
  outcome.payload? = none ∧ outcome.isQuota lower = false

/-- What `_fetch_once` makes of an outcome. -/
def result : AttemptOutcome → Except FetchError Json
  | .answered status text json => checkResponse status text json
  | .transportError text _ => .error (.transport text)
  | .otherError exc _ => .error (.other exc)

theorem result_of_errorAt {outcome : AttemptOutcome} {stage : Stage} {exc : FetchError}
    (h : outcome.errorAt stage = some exc) : outcome.result = .error exc := by
  cases outcome with
  | answered status text json => cases h
  | transportError text first | otherError text first =>
    unfold errorAt at h
    dsimp only at h
    split_ifs at h
    obtain rfl := Option.some.inj h
    rfl

end AttemptOutcome

/-- The proxy for an index. -/
def Config.proxyAt (cfg : Config) (index : ℕ) : Option Str :=
  if cfg.proxies = [] then none else cfg.proxies[index % cfg.proxies.length]?

/-! ### One attempt -/

section Attempt

variable {cfg : Config} {pagePath : Str} {proxy : Option Str} {fingerprint : SessionFingerprint}
  {outcome : AttemptOutcome} {a : Attempt} {s : State}

/-- What an attempt leaves alone after the choice of the proxy. -/
def SameTurn (s s' : State) : Prop := s'.tried = s.tried ∧ s'.proxyIndex = s.proxyIndex

theorem SameTurn.trans {s s' s'' : State} (h : SameTurn s s') (h' : SameTurn s' s'') :
    SameTurn s s'' := ⟨h'.1.trans h.1, h'.2.trans h.2⟩

theorem nextProxy_tried :
    (nextProxy cfg s).2.tried = s.tried ++ [cfg.proxyAt s.proxyIndex] := by
  unfold nextProxy Config.proxyAt
  split_ifs <;> rfl

/-- The next attempts count on from here. -/
theorem proxyAt_nextProxy (i : ℕ) : cfg.proxyAt ((nextProxy cfg s).2.proxyIndex + i) =
    cfg.proxyAt (s.proxyIndex + (i + 1)) := by
  unfold nextProxy
  split_ifs with hproxies
  · simp [Config.proxyAt, hproxies]
  · dsimp only
    rw [Nat.add_right_comm, Nat.add_assoc]

theorem fingerprintForProxy_sameTurn (cfg : Config) (proxy : Option Str) (a : Attempt) (s : State) :
    SameTurn s (fingerprintForProxy cfg proxy a s).2 := by
  unfold fingerprintForProxy
  cases s.fingerprints proxy with
  | none => exact ⟨rfl, rfl⟩
  | some fingerprint => exact ⟨rfl, rfl⟩

theorem clientForProxy_sameTurn : SameTurn s (clientForProxy proxy outcome s).2 := by
  unfold clientForProxy
  cases s.clients proxy with
  | some client => exact ⟨rfl, rfl⟩
  | none => cases outcome.errorAt .client <;> exact ⟨rfl, rfl⟩

theorem warmUp_sameTurn {client : ℕ} :
    SameTurn s (warmUp cfg proxy fingerprint client outcome s).2 := by
  unfold warmUp
  split_ifs
  · cases outcome.errorAt .warmup <;> exact ⟨rfl, rfl⟩
  · exact ⟨rfl, rfl⟩

theorem composerRequest_sameTurn {client : ℕ} :
    SameTurn s (composerRequest pagePath fingerprint client outcome s).2 := by
  cases outcome <;> exact ⟨rfl, rfl⟩

theorem composerRequest_fst {client : ℕ} :
    (composerRequest pagePath fingerprint client outcome s).1 = outcome.result := by
  cases outcome <;> rfl

theorem clientForProxy_error {exc : FetchError} {s' : State}
    (h : clientForProxy proxy outcome s = (.error exc, s')) : outcome.result = .error exc := by
  unfold clientForProxy at h
  cases hclient : s.clients proxy with
  | some client =>
    rw [hclient] at h
    cases h
  | none =>
    rw [hclient] at h
    cases herror : outcome.errorAt .client with
    | none =>
      rw [herror] at h
      cases h
    | some exc' =>
      rw [herror] at h
      obtain rfl : exc' = exc := Except.error.inj (Prod.mk.inj h).1
      exact AttemptOutcome.result_of_errorAt herror

theorem warmUp_error {client : ℕ} {exc : FetchError} {s' : State}
    (h : warmUp cfg proxy fingerprint client outcome s = (.error exc, s')) :
    outcome.result = .error exc := by
  unfold warmUp at h
  split_ifs at h
  · cases herror : outcome.errorAt .warmup with
    | none =>
      rw [herror] at h
      cases h
    | some exc' =>
      rw [herror] at h
      obtain rfl : exc' = exc := Except.error.inj (Prod.mk.inj h).1
      exact AttemptOutcome.result_of_errorAt herror
  · cases h

/-- The spec of `_fetch_once`: the outcome decides, and the turn of the proxies is not touched. -/
theorem fetchOnce_spec (cfg : Config) (pagePath : Str) (proxy : Option Str)
    (fingerprint : SessionFingerprint) (outcome : AttemptOutcome) (s : State) :
    (fetchOnce cfg pagePath proxy fingerprint outcome s).1 = outcome.result ∧
      SameTurn s (fetchOnce cfg pagePath proxy fingerprint outcome s).2 := by
  unfold fetchOnce
  have hturn : SameTurn s (clientForProxy proxy outcome s).2 := clientForProxy_sameTurn
  cases hclient : clientForProxy proxy outcome s with
  | mk result s' =>
    rw [hclient] at hturn
    cases result with
    | error exc => exact ⟨(clientForProxy_error hclient).symm, hturn⟩
    | ok client =>
      dsimp only
      have hturn' : SameTurn s' (warmUp cfg proxy fingerprint client outcome s').2 :=
        warmUp_sameTurn
      cases hwarm : warmUp cfg proxy fingerprint client outcome s' with
      | mk result' s'' =>
        rw [hwarm] at hturn'
        cases result' with
        | error exc => exact ⟨(warmUp_error hwarm).symm, hturn.trans hturn'⟩
        | ok _ =>
          exact ⟨composerRequest_fst, (hturn.trans hturn').trans composerRequest_sameTurn⟩

/-- The spec of the body of the loop. -/
theorem runAttempt_spec (cfg : Config) (pagePath : Str) (a : Attempt) (s : State) :
    (runAttempt cfg pagePath a s).1 = attemptEnd cfg a.outcome.result ∧
      SameTurn (nextProxy cfg s).2 (runAttempt cfg pagePath a s).2 := by
  unfold runAttempt
  rcases nextProxy cfg s with ⟨proxy, s₁⟩
  have hturn := fingerprintForProxy_sameTurn cfg proxy a s₁
  rcases hprint : fingerprintForProxy cfg proxy a s₁ with ⟨fingerprint, s₂⟩
  obtain ⟨hresult, hturn'⟩ := fetchOnce_spec cfg pagePath proxy fingerprint a.outcome s₂
  rcases hfetch : fetchOnce cfg pagePath proxy fingerprint a.outcome s₂ with ⟨result, s₃⟩
  rw [hprint] at hturn
  rw [hfetch] at hresult hturn'
  have hafter : SameTurn s₁ s₃ := hturn.trans hturn'
  obtain rfl : result = a.outcome.result := hresult
  simp only [hprint, hfetch]
  cases hend : attemptEnd cfg a.outcome.result with
  | returned payload => exact ⟨rfl, hafter⟩
  | raised exc => exact ⟨rfl, hafter⟩
  | failed lastError =>
    cases a.outcome.result with
    | ok payload => exact ⟨rfl, hafter⟩
    | error exc => exact ⟨rfl, hafter⟩

/-- What the four kinds of outcomes make of an attempt. -/
inductive Verdict (cfg : Config) (outcome : AttemptOutcome) : AttemptEnd → Prop
  | returned {payload : Json} (hpayload : outcome.payload? = some payload)
      (hquota : outcome.isQuota cfg.lower = false) (hhandled : outcome.isUnhandled = false) :
      Verdict cfg outcome (.returned payload)
  | quota {message : Str} (hpayload : outcome.payload? = none)
      (hquota : outcome.isQuota cfg.lower = true) (hhandled : outcome.isUnhandled = false) :
      Verdict cfg outcome (.raised (.proxyQuotaExhausted message))
  | uncaught {exc : PyError} (hfailed : outcome.Failed cfg.lower)
      (hunhandled : outcome.isUnhandled = true) : Verdict cfg outcome (.raised (.uncaught exc))
  | failed {lastError : Str} (hfailed : outcome.Failed cfg.lower)
      (hhandled : outcome.isUnhandled = false) : Verdict cfg outcome (.failed lastError)

/-- A response with a 2xx status is worth its body. -/
theorem verdict_of_success {status : ℕ} (hsuccess : 200 ≤ status ∧ status ≤ 299) (text : Str)
    (json : Except PyError Json) :
    Verdict cfg (.answered status text json)
      (attemptEnd cfg (AttemptOutcome.answered status text json).result) := by
  have hquota : decide (status = 402 ∨ status = 407) = false := by
    rw [decide_eq_false_iff_not]
    omega
  have hresult : (AttemptOutcome.answered status text json).result = json.mapError .other :=
    if_pos hsuccess
  rw [hresult]
  cases json with
  | error exc => exact .uncaught ⟨rfl, hquota⟩ (decide_eq_true hsuccess)
  | ok payload =>
    cases payload with
    | dict fields =>
      have hget : attemptEnd cfg ((Except.ok (Json.dict fields) : Except PyError Json).mapError
          .other) = if ((fields.lookup "widgetStates".toList).getD .null).truthy then
            .returned (.dict fields)
          else .failed "empty widgetStates in composer response".toList := rfl
      rw [hget]
      split_ifs with hstates
      · exact .returned (if_pos ⟨hsuccess, hstates⟩) hquota rfl
      · exact .failed ⟨if_neg fun h => hstates h.2, hquota⟩ rfl
    -- `payload.get` raises for a value that is not an object
    | null | bool | int | float | str | list =>
      exact .uncaught ⟨rfl, hquota⟩ (decide_eq_true hsuccess)

/-- A response with another status is a quota signal or a failure. -/
theorem verdict_of_httpStatus {status : ℕ} (hstatus : ¬ (200 ≤ status ∧ status ≤ 299)) (text : Str)
    (json : Except PyError Json) :
    Verdict cfg (.answered status text json)
      (attemptEnd cfg (AttemptOutcome.answered status text json).result) := by
  have hresult : (AttemptOutcome.answered status text json).result =
      .error (.httpStatus status text) := if_neg hstatus
  have hpayload : (AttemptOutcome.answered status text json).payload? = none := by
    unfold AttemptOutcome.payload?
    split
    · rename_i heq
      obtain ⟨rfl, -, -⟩ := AttemptOutcome.answered.inj heq
      exact if_neg fun h => hstatus h.1
    · rfl
  have hhandled : (AttemptOutcome.answered status text json).isUnhandled = false := by
    unfold AttemptOutcome.isUnhandled
    split
    · rfl
    · rename_i heq
      obtain ⟨rfl, -, -⟩ := AttemptOutcome.answered.inj heq
      exact decide_eq_false hstatus
    · rfl
    · rename_i heq
      cases heq
  rw [hresult]
  by_cases hquota : status = 402 ∨ status = 407
  · have hend : attemptEnd cfg (.error (.httpStatus status text)) =
        .raised (.proxyQuotaExhausted _) := if_pos hquota
    rw [hend]
    exact .quota hpayload (decide_eq_true hquota) hhandled
  · have hend : attemptEnd cfg (.error (.httpStatus status text)) = .failed (text.take 300) :=
      if_neg hquota
    rw [hend]
    exact .failed ⟨hpayload, decide_eq_false hquota⟩ hhandled

/-- What an outcome makes of the attempt. -/
theorem verdict_attemptEnd (cfg : Config) (outcome : AttemptOutcome) :
    Verdict cfg outcome (attemptEnd cfg outcome.result) := by
  cases outcome with
  | otherError exc stage => exact .uncaught ⟨rfl, rfl⟩ rfl
  | transportError text stage =>
    cases hquota : isProxyQuotaTransportError cfg.lower text with
    | true =>
      have hend : attemptEnd cfg (.error (.transport text)) =
          .raised (.proxyQuotaExhausted _) := if_pos hquota
      exact hend ▸ .quota rfl hquota rfl
    | false =>
      have hend : attemptEnd cfg (.error (.transport text)) = .failed text :=
        if_neg (by rw [hquota]; exact Bool.false_ne_true)
      exact hend ▸ .failed ⟨rfl, hquota⟩ rfl
  | answered status text json =>
    by_cases hsuccess : 200 ≤ status ∧ status ≤ 299
    · exact verdict_of_success hsuccess text json
    · exact verdict_of_httpStatus hsuccess text json

end Attempt

/-! ### The loop -/

/-- What a call is for: at most `most` attempts, until one decides. -/
structure ComposerSpec (cfg : Config) (outcomes : ℕ → AttemptOutcome) (most : ℕ) (s : State)
    (made : ℕ) (result : Except ComposerError Json × State) : Prop where
  made_le : made ≤ most
  /-- Each attempt is made on the next proxy. -/
  tried : result.2.tried =
    s.tried ++ (List.range made).map fun i => cfg.proxyAt (s.proxyIndex + i)
  returns : ∀ i payload, i < most → (∀ j < i, (outcomes j).Failed cfg.lower) →
    (outcomes i).payload? = some payload → made = i + 1 ∧ result.1 = .ok payload
  quota : ∀ i, i < most → (∀ j < i, (outcomes j).Failed cfg.lower) →
    (outcomes i).isQuota cfg.lower = true →
    made = i + 1 ∧ ∃ message, result.1 = .error (.proxyQuotaExhausted message)
  antiBot_iff : (∃ detail, result.1 = .error (.antiBot 403 detail)) ↔
    ∀ i < most, (outcomes i).Failed cfg.lower
  exhausted : (∀ i < most, (outcomes i).Failed cfg.lower) → made = most
  nothing_else : ∀ exc, result.1 ≠ .error (.uncaught exc)

/-- The attempts that are made are handled, and so are the waits before them. -/
def Handled (cfg : Config) (outcomes : ℕ → AttemptOutcome) (most attempt : ℕ) : Prop :=
  ∀ i < most, (∀ j < i, (outcomes j).Failed cfg.lower) →
    cfg.waitError (attempt + i) = none ∧ (outcomes i).isUnhandled = false

/-- The outcomes that come next. -/
def outcomesFrom (network : ℕ → Attempt) (s : State) (i : ℕ) : AttemptOutcome :=
  (network (s.tried.length + i)).outcome

section Loop

variable {cfg : Config} {network : ℕ → Attempt} {pagePath : Str} {outcomes : ℕ → AttemptOutcome}
  {most attempt made : ℕ} {lastError : Str} {s s' : State}
  {result : Except ComposerError Json × State}

theorem handled_succ : Handled cfg outcomes (most + 1) attempt ↔
    (cfg.waitError attempt = none ∧ (outcomes 0).isUnhandled = false) ∧
      ((outcomes 0).Failed cfg.lower →
        Handled cfg (fun i => outcomes (i + 1)) most (attempt + 1)) := by
  constructor
  · intro h
    refine ⟨h 0 (Nat.succ_pos most) (by simp), fun hfailed i hi hbefore => ?_⟩
    have hnext := h (i + 1) (by omega) fun j hj => by
      cases j with
      | zero => exact hfailed
      | succ j => exact hbefore j (by omega)
    rwa [Nat.add_right_comm, Nat.add_assoc]
  · rintro ⟨hfirst, hrest⟩ i hi hbefore
    cases i with
    | zero => exact hfirst
    | succ i =>
      have hfailed := hbefore 0 (Nat.succ_pos i)
      have hnext := hrest hfailed i (by omega) fun j hj => hbefore (j + 1) (by omega)
      rwa [Nat.add_right_comm, Nat.add_assoc] at hnext

/-- The first attempt decides. -/
theorem composerSpec_of_decided (hdecided : ¬ (outcomes 0).Failed cfg.lower)
    (htried : result.2.tried = s.tried ++ [cfg.proxyAt s.proxyIndex])
    (hreturns : ∀ payload, (outcomes 0).payload? = some payload → result.1 = .ok payload)
    (hquota : (outcomes 0).isQuota cfg.lower = true →
      ∃ message, result.1 = .error (.proxyQuotaExhausted message))
    (hresult : (∃ payload, result.1 = .ok payload) ∨
      ∃ message, result.1 = .error (.proxyQuotaExhausted message)) :
    ComposerSpec cfg outcomes (most + 1) s 1 result := by
  -- only the first attempt has nothing but failures before it
  have hzero : ∀ i, (∀ j < i, (outcomes j).Failed cfg.lower) → i = 0 := by
    intro i hbefore
    by_contra hne
    exact hdecided (hbefore 0 (by omega))
  constructor
  case made_le => omega
  case tried => simpa using htried
  case returns =>
    intro i payload _ hbefore hpayload
    obtain rfl := hzero i hbefore
    exact ⟨rfl, hreturns payload hpayload⟩
  case quota =>
    intro i _ hbefore hsignal
    obtain rfl := hzero i hbefore
    exact ⟨rfl, hquota hsignal⟩
  case antiBot_iff =>
    refine iff_of_false ?_ fun hall => hdecided (hall 0 (by omega))
    rintro ⟨detail, hdetail⟩
    rcases hresult with ⟨payload, h⟩ | ⟨message, h⟩ <;> rw [h] at hdetail <;> cases hdetail
  case exhausted =>
    intro hall
    exact absurd (hall 0 (by omega)) hdecided
  case nothing_else =>
    intro exc huncaught
    rcases hresult with ⟨payload, h⟩ | ⟨message, h⟩ <;> rw [h] at huncaught <;> cases huncaught

/-- The first attempt failed, and the others meet the spec. -/
theorem ComposerSpec.cons (hfailed : (outcomes 0).Failed cfg.lower)
    (htried : s'.tried = s.tried ++ [cfg.proxyAt s.proxyIndex])
    (hproxies : ∀ i, cfg.proxyAt (s'.proxyIndex + i) = cfg.proxyAt (s.proxyIndex + (i + 1)))
    (h : ComposerSpec cfg (fun i => outcomes (i + 1)) most s' made result) :
    ComposerSpec cfg outcomes (most + 1) s (made + 1) result := by
  have hnot : ∀ payload, (outcomes 0).payload? ≠ some payload := by
    intro payload heq
    rw [hfailed.1] at heq
    cases heq
  have hnoQuota : (outcomes 0).isQuota cfg.lower ≠ true := by
    rw [hfailed.2]
    exact Bool.false_ne_true
  have hall : (∀ i < most + 1, (outcomes i).Failed cfg.lower) ↔
      ∀ i < most, (outcomes (i + 1)).Failed cfg.lower := by
    constructor
    · exact fun h i hi => h (i + 1) (by omega)
    · intro h i hi
      cases i with
      | zero => exact hfailed
      | succ i => exact h i (by omega)
  constructor
  case made_le =>
    have hle := h.made_le
    omega
  case tried =>
    rw [h.tried, htried, List.range_succ_eq_map, List.map_cons, List.map_map, List.append_assoc]
    simp [hproxies, Function.comp_def]
  case returns =>
    intro i payload hi hbefore hpayload
    cases i with
    | zero => exact absurd hpayload (hnot payload)
    | succ i =>
      obtain ⟨hmade, hresult⟩ := h.returns i payload (by omega)
        (fun j hj => hbefore (j + 1) (by omega)) hpayload
      exact ⟨by omega, hresult⟩
  case quota =>
    intro i hi hbefore hsignal
    cases i with
    | zero => exact absurd hsignal hnoQuota
    | succ i =>
      obtain ⟨hmade, hresult⟩ := h.quota i (by omega)
        (fun j hj => hbefore (j + 1) (by omega)) hsignal
      exact ⟨by omega, hresult⟩
  case antiBot_iff =>
    rw [hall]
    exact h.antiBot_iff
  case exhausted =>
    intro hfailures
    have hmade := h.exhausted (hall.mp hfailures)
    omega
  case nothing_else => exact h.nothing_else

theorem runAttempt_tried (cfg : Config) (pagePath : Str) (a : Attempt) (s : State) :
    (runAttempt cfg pagePath a s).2.tried = s.tried ++ [cfg.proxyAt s.proxyIndex] :=
  (runAttempt_spec cfg pagePath a s).2.1.trans nextProxy_tried

theorem verdict_runAttempt (cfg : Config) (network : ℕ → Attempt) (pagePath : Str) (s : State) :
    Verdict cfg (outcomesFrom network s 0)
      (runAttempt cfg pagePath (network s.tried.length) s).1 := by
  rw [(runAttempt_spec cfg pagePath (network s.tried.length) s).1]
  exact verdict_attemptEnd cfg (outcomesFrom network s 0)

variable (network) in
theorem outcomesFrom_of_tried (htried : s'.tried = s.tried ++ [cfg.proxyAt s.proxyIndex]) :
    outcomesFrom network s' = fun i => outcomesFrom network s (i + 1) := by
  funext i
  unfold outcomesFrom
  rw [htried, List.length_append, List.length_singleton, Nat.add_right_comm, Nat.add_assoc]

variable (pagePath lastError) in
/-- The loop meets the spec if everything is handled. -/
theorem composerLoop_spec (h : Handled cfg (outcomesFrom network s) most attempt) :
    ∃ made, ComposerSpec cfg (outcomesFrom network s) most s made
      (composerLoop cfg network pagePath most attempt lastError s) := by
  -- on the attempts that are left: the next one decides, or the spec of the rest is extended by it
  induction most generalizing attempt lastError s with
  | zero =>
    refine ⟨0, ⟨le_rfl, by simp [composerLoop], by simp, by simp, ?_, by simp,
      by simp [composerLoop]⟩⟩
    exact iff_of_true ⟨lastError, rfl⟩ (by simp)
  | succ most ih =>
    obtain ⟨⟨hwait, hhandled⟩, hrest⟩ := handled_succ.mp h
    have hturn := (runAttempt_spec cfg pagePath (network s.tried.length) s).2
    have hverdict := verdict_runAttempt cfg network pagePath s
    have htried := runAttempt_tried cfg pagePath (network s.tried.length) s
    rcases hrun : runAttempt cfg pagePath (network s.tried.length) s with ⟨ended, s'⟩
    rw [hrun] at hturn hverdict htried
    simp only [composerLoop, hwait, hrun]
    cases hverdict with
    | @returned payload hpayload hquota _ =>
      refine ⟨1, composerSpec_of_decided ?_ htried ?_ ?_ (Or.inl ⟨payload, rfl⟩)⟩
      · rintro ⟨hnone, -⟩
        rw [hpayload] at hnone
        cases hnone
      · intro payload' hpayload'
        rw [hpayload] at hpayload'
        rw [Option.some.inj hpayload']
      · intro hsignal
        rw [hquota] at hsignal
        cases hsignal
    | @quota message hpayload hquota _ =>
      refine ⟨1, composerSpec_of_decided ?_ htried ?_ (fun _ => ⟨message, rfl⟩)
        (Or.inr ⟨message, rfl⟩)⟩
      · rintro ⟨-, hnone⟩
        rw [hquota] at hnone
        cases hnone
      · intro payload' hpayload'
        rw [hpayload] at hpayload'
        cases hpayload'
    | uncaught _ hunhandled =>
      rw [hhandled] at hunhandled
      cases hunhandled
    | @failed error hfailed _ =>
      -- the loop goes on, on the next proxy
      have hfrom := outcomesFrom_of_tried network htried
      have hhandled' := hrest hfailed
      rw [← hfrom] at hhandled'
      obtain ⟨made, hspec⟩ := ih error hhandled'
      refine ⟨made + 1, ComposerSpec.cons hfailed htried (fun i => ?_) (hfrom ▸ hspec)⟩
      rw [hturn.2, proxyAt_nextProxy]

variable (pagePath lastError) in
/-- Otherwise it ends with an exception that nothing handles. -/
theorem composerLoop_uncaught (h : ¬ Handled cfg (outcomesFrom network s) most attempt) :
    ∃ exc, (composerLoop cfg network pagePath most attempt lastError s).1 =
      .error (.uncaught exc) := by
  induction most generalizing attempt lastError s with
  | zero => exact absurd (by simp [Handled]) h
  | succ most ih =>
    unfold composerLoop
    cases hwait : cfg.waitError attempt with
    | some exc => exact ⟨exc, rfl⟩
    | none =>
      have hverdict := verdict_runAttempt cfg network pagePath s
      have htried := runAttempt_tried cfg pagePath (network s.tried.length) s
      rcases hrun : runAttempt cfg pagePath (network s.tried.length) s with ⟨ended, s'⟩
      rw [hrun] at hverdict htried
      rw [handled_succ, hwait] at h
      cases hverdict with
      -- a payload or a quota signal ends the call, so that all its attempts were handled
      | returned hpayload _ hhandled =>
        refine absurd ⟨⟨rfl, hhandled⟩, fun hfailed => ?_⟩ h
        have hnone := hfailed.1
        rw [hpayload] at hnone
        cases hnone
      | quota _ hquota hhandled =>
        refine absurd ⟨⟨rfl, hhandled⟩, fun hfailed => ?_⟩ h
        have hnone := hfailed.2
        rw [hquota] at hnone
        cases hnone
      | @uncaught exc _ _ => exact ⟨exc, rfl⟩
      | @failed error hfailed hhandled =>
        refine ih error fun hhandled' => h ⟨⟨rfl, hhandled⟩, fun _ => ?_⟩
        rwa [← outcomesFrom_of_tried network htried]

end Loop

/-- A wait can be taken before the first attempt, and before the others up to number 1024 if the
base delay is not negative. -/
theorem waitError_eq_none_iff (cfg : Config) (attempt : ℕ) :
    cfg.waitError attempt = none ↔ attempt = 0 ∨ attempt ≤ 1024 ∧ 0 ≤ cfg.baseDelay := by
  have hpow : (0 : ℚ) < 2 ^ (attempt - 1) := by positivity
  have hsign : min 60 (cfg.baseDelay * 2 ^ (attempt - 1)) < 0 ↔ cfg.baseDelay < 0 := by
    rw [min_lt_iff, or_iff_right (by norm_num), ← not_le, ← not_le]
    exact not_congr (mul_nonneg_iff_of_pos_right hpow)
  unfold Config.waitError
  simp only [hsign]
  split_ifs with hfirst hlarge hneg
  · exact iff_of_true rfl (Or.inl hfirst)
  · refine iff_of_false (by simp) ?_
    omega
  · refine iff_of_false (by simp) ?_
    rintro (h | ⟨-, h⟩)
    · exact hfirst h
    · exact absurd hneg (not_lt.mpr h)
  · exact iff_of_true rfl (Or.inr ⟨by omega, not_lt.mp hneg⟩)

/-- **When a call does what it is for**, from any state of the client: if and only if no attempt
that is made has a 2xx response whose body is not a JSON object (or meets an exception that is no
transport error), none has a number above 1024, and the base delay is not negative if there is a
second one. -/
theorem composerSpec_iff (cfg : Config) (network : ℕ → Attempt) (pagePath : Str) (s : State) :
    (∃ made, ComposerSpec cfg (outcomesFrom network s) cfg.attempts s made
        (getComposerJson cfg network pagePath s)) ↔
      ∀ i < cfg.attempts, (∀ j < i, (outcomesFrom network s j).Failed cfg.lower) →
        (i = 0 ∨ i ≤ 1024 ∧ 0 ≤ cfg.baseDelay) ∧
          (outcomesFrom network s i).isUnhandled = false := by
  have hhandled : Handled cfg (outcomesFrom network s) cfg.attempts 0 ↔
      ∀ i < cfg.attempts, (∀ j < i, (outcomesFrom network s j).Failed cfg.lower) →
        (i = 0 ∨ i ≤ 1024 ∧ 0 ≤ cfg.baseDelay) ∧
          (outcomesFrom network s i).isUnhandled = false := by
    simp [Handled, waitError_eq_none_iff]
  rw [← hhandled]
  constructor
  · rintro ⟨made, hspec⟩
    by_contra h
    obtain ⟨exc, huncaught⟩ := composerLoop_uncaught pagePath "unknown".toList h
    exact hspec.nothing_else exc huncaught
  · exact fun h => composerLoop_spec pagePath "unknown".toList h

/-- A page that is not JSON, with status 200. -/
def htmlAttempt : Attempt where
  profile := { name := "chrome".toList, userAgent := "Mozilla/5.0".toList }
  viewport := (1440, 900)
  outcome := .answered 200 "<html></html>".toList
    (.error ⟨.value, "Expecting value: line 1 column 1 (char 0)".toList⟩)

/-- A response of status 200 that is not JSON ends a call with the exception of `json()`. -/
theorem not_composerSpec :
    ¬ ∀ (cfg : Config) (network : ℕ → Attempt) (pagePath : Str) (s : State),
      0 ≤ cfg.baseDelay → cfg.attempts ≤ 1024 →
      (∀ i, ∃ status text json, (network i).outcome = .answered status text json) →
      ∃ made, ComposerSpec cfg (outcomesFrom network s) cfg.attempts s made
        (getComposerJson cfg network pagePath s) := by
  intro hall
  obtain ⟨made, hspec⟩ := hall
    { firstProfile := htmlAttempt.profile, lower := fun text => text.map Char.toLower }
    (fun _ => htmlAttempt) "/category/".toList {} (by decide) (by decide +kernel)
    (fun _ => ⟨200, _, _, rfl⟩)
  exact hspec.nothing_else _ rfl

end MarketplacePipeline.OzonHttpClient
