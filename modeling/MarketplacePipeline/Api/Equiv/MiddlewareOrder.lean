import MarketplacePipeline.Api.Equiv.AllowHistory
import MarketplacePipeline.Api.Equiv.RedisHistory

/-!
# The API key in front of the rate limiter

`create_app` adds the API key middleware last, so it is the outermost one: a request that it answers
never reaches the rate limiter.  Such requests are never counted and never answered with 429
(`createApp_eq_gated`), and all requests of a client stay within the limit only if none of them
comes when the limit is reached (`answered_within_iff`).
-/

namespace MarketplacePipeline

open Schedule SlidingWindow

/-- The rate limiter sees a request and counts it. -/
def isCounted (accepts : Str → Bool) (apiKey : Str) (a : Arrival) : Bool :=
  match ApiKeyAuthMiddleware.dispatch accepts apiKey a.request with
  | .ok .callNext =>
    match a.request.urlPath accepts with
    | .ok path => !isPublicPath path
    | .error _ => false
  | _ => false

/-- A response with another status than 429. -/
def isAnswered (answer : Except PyError Response) : Bool :=
  match answer with
  | .ok (.rateLimited _ _) => false
  | _ => true

section Gate

variable {σ : Type} {accepts : Str → Bool} {apiKey : Str} {a : Arrival}

/-- How the app treats a request. -/
def appGate (accepts : Str → Bool) (apiKey : Str) (a : Arrival) : Gate Str :=
  if isCounted accepts apiKey a then .limit (clientIp a) else .pass

theorem appGate_of_counted (h : isCounted accepts apiKey a = true) :
    appGate accepts apiKey a = .limit (clientIp a) := if_pos h

theorem appGate_of_not_counted (h : isCounted accepts apiKey a = false) :
    appGate accepts apiKey a = .pass :=
  if_neg (by rw [h]; exact Bool.false_ne_true)

/-- The app is its rate limiter behind a gate. -/
theorem createApp_eq_gated (accepts : Str → Bool) (apiKey : Str)
    (allow : Str → ℚ → σ → Bool × σ) (a : Arrival) (s : σ) :
    (isAnswered (createApp accepts apiKey (dispatchLimited accepts allow) a s).1,
        (createApp accepts apiKey (dispatchLimited accepts allow) a s).2) =
      Window.gated allow (appGate accepts apiKey) Arrival.now a s := by
  have happ : createApp accepts apiKey (dispatchLimited accepts allow) a s =
      ApiKeyAuthMiddleware.guard accepts apiKey (dispatchLimited accepts allow routes) a s := rfl
  rw [happ]
  unfold ApiKeyAuthMiddleware.guard Window.gated appGate isCounted
  cases ApiKeyAuthMiddleware.dispatch accepts apiKey a.request with
  | error exc => rfl
  | ok result =>
    cases result with
    | unauthorized detail => rfl
    | callNext =>
      dsimp only
      unfold dispatchLimited
      cases a.request.urlPath accepts with
      | error exc => rfl
      | ok path =>
        dsimp only
        by_cases hpublic : isPublicPath path = true
        · have hpass : ¬ (!isPublicPath path) = true := by simp [hpublic]
          rw [if_pos hpublic, if_neg hpass]
          rfl
        · have hlimit : (!isPublicPath path) = true := by simp [hpublic]
          rw [if_neg hpublic, if_pos hlimit]
          dsimp only
          cases allow (clientIp a) a.now s with
          | mk allowed s' => cases allowed <;> rfl

end Gate

/-- The requests in the 60 seconds before an instant that were not counted. -/
def uncountedInMinute (accepts : Str → Bool) (apiKey : Str) (w : Window ℚ) (now : ℚ)
    (arrivals : List Arrival) : ℕ :=
  arrivals.countP fun a => !isCounted accepts apiKey a && w.young now a.now

section Within

variable {σ : Type} {w : Window ℚ} {allow : Str → ℚ → σ → Bool × σ} {limit : ℤ}
  {Knows : ℚ → σ → (Str → List ℚ) → Prop} {accepts : Str → Bool} {apiKey : Str} {now : ℚ} {s : σ}
  {ip : Str} {arrivals : List Arrival}

theorem openCount_appGate (now : ℚ) (arrivals : List Arrival) :
    w.openCount (appGate accepts apiKey) Arrival.now now arrivals =
      uncountedInMinute accepts apiKey w now arrivals := by
  unfold Window.openCount uncountedInMinute
  apply List.countP_congr
  intro a _
  cases hcounted : isCounted accepts apiKey a with
  | true => simp [appGate_of_counted hcounted]
  | false => simp [appGate_of_not_counted hcounted]

theorem passes_appGate (count : Str → ℕ) (a : Arrival) :
    Window.Passes limit count (appGate accepts apiKey a) ↔
      (isCounted accepts apiKey a = true → (count (clientIp a) : ℤ) < limit) := by
  cases hcounted : isCounted accepts apiKey a with
  | true => simp [appGate_of_counted hcounted, Window.Passes]
  | false => simp [appGate_of_not_counted hcounted, Window.Passes]

/-- The state of the limiter after some requests. -/
def stateAfter (app : App σ) (s : σ) (arrivals : List Arrival) : σ :=
  run (fun a s => (app a s).2) s arrivals

theorem stateAfter_createApp (s : σ) (arrivals : List Arrival) :
    run (fun a s => (Window.gated allow (appGate accepts apiKey) Arrival.now a s).2) s arrivals =
      stateAfter (createApp accepts apiKey (dispatchLimited accepts allow)) s arrivals := by
  unfold stateAfter
  congr 1
  funext a s
  rw [← createApp_eq_gated]

/-- The app with an exact limiter, where `count` are the requests of a client that it counted and
that are still young. -/
theorem answered_within_exact (accepts : Str → Bool) (apiKey : Str)
    (h : w.Exact limit allow Knows)
    (hstart : Knows now s fun client => timesOf client []) (count : σ → ℚ → Str → ℕ)
    (hcount : ∀ {now s times t}, Knows now s times → now ≤ t →
      ∀ client, count s t client = (times client).countP (w.young t))
    (hlimit : 0 ≤ limit) (hip : ∀ a ∈ arrivals, clientIp a = ip)
    (hsorted : (now :: arrivals.map Arrival.now).Pairwise (· ≤ ·)) :
    (∀ start, ((answers (createApp accepts apiKey (dispatchLimited accepts allow)) s
        arrivals).countP
        (fun e => isAnswered e.2 && (decide (start ≤ e.1.now) && w.young e.1.now start)) : ℤ) ≤
          limit) ↔
      ∀ pre a post, arrivals = pre ++ a :: post →
        (isCounted accepts apiKey a = true →
          (count (stateAfter (createApp accepts apiKey (dispatchLimited accepts allow)) s pre)
            a.now ip : ℤ) < limit) →
        (count (stateAfter (createApp accepts apiKey (dispatchLimited accepts allow)) s pre)
            a.now ip + uncountedInMinute accepts apiKey w a.now pre : ℤ) < limit := by
  have hkeys : ∀ pre, pre <+: arrivals → ∀ a ∈ pre, ∀ key,
      (appGate accepts apiKey a).key = some key → key ∈ ({ip} : Finset Str) := by
    intro pre hpre a ha key hkey
    have hclient := hip a (hpre.subset ha)
    unfold appGate at hkey
    split_ifs at hkey
    · obtain rfl : clientIp a = key := Option.some.inj hkey
      exact Finset.mem_singleton.mpr hclient
    · cases hkey
  have hbounded := h.bounded_iff (appGate accepts apiKey) hstart count hcount
    (fun _ => {ip}) hkeys hlimit hsorted
  have hwindow := Window.bounded_passedTimes w limit (s := s)
    (createApp_eq_gated accepts apiKey allow) arrivals
  rw [← hwindow, hbounded]
  refine forall₄_congr fun pre a post heq => ?_
  have hclient : clientIp a = ip := hip a (by rw [heq]; simp)
  rw [passes_appGate, stateAfter_createApp, openCount_appGate, Finset.sum_singleton, hclient]
  push_cast
  exact Iff.rfl

end Within

/-! ### The two apps -/

/-- The state of the in-memory limiter after some requests. -/
def hitsAfterApp (accepts : Str → Bool) (apiKey : Str) (limit : ℤ) (arrivals : List Arrival) :
    Str → List ℚ :=
  stateAfter (createAppInMemory accepts apiKey limit) (fun _ => []) arrivals

/-- The state of the Redis limiter after some requests. -/
def setsAfterApp (accepts : Str → Bool) (apiKey : Str) (limit : ℤ) (arrivals : List Arrival) :
    ℕ × (Str → SortedSet ℕ) :=
  stateAfter (createAppRedis accepts apiKey limit) (0, fun _ => {}) arrivals

open RateLimitMiddleware RedisSlidingWindowRateLimiter in
/-- **When the requests of a client stay within the limit**, guesses of the API key included: if and
only if none that the limiter does not count, or finds room for, comes when the requests that it
counted and those that it did not count have reached the limit.  A window includes the instant 60
seconds after its start for the in-memory limiter, and excludes it for the Redis limiter. -/
theorem answered_within_iff (accepts : Str → Bool) (apiKey : Str) {limit : ℤ} (hlimit : 1 ≤ limit)
    {ip : Str} {arrivals : List Arrival} (hip : ∀ a ∈ arrivals, clientIp a = ip)
    (hsorted : (arrivals.map Arrival.now).Pairwise (· ≤ ·)) :
    ((∀ s, ((answers (createAppInMemory accepts apiKey limit) (fun _ => []) arrivals).countP
        (fun e => isAnswered e.2 ∧ s ≤ e.1.now ∧ e.1.now ≤ s + 60) : ℤ) ≤ limit) ↔
      ∀ pre a post, arrivals = pre ++ a :: post →
        (isCounted accepts apiKey a = true →
          (hitsInMinute a.now (hitsAfterApp accepts apiKey limit pre) ip : ℤ) < limit) →
        (hitsInMinute a.now (hitsAfterApp accepts apiKey limit pre) ip +
          uncountedInMinute accepts apiKey closedMinute a.now pre : ℤ) < limit) ∧
    ((∀ a ∈ arrivals, 0 ≤ a.now) →
      ((∀ s, ((answers (createAppRedis accepts apiKey limit) (0, fun _ => {}) arrivals).countP
          (fun e => isAnswered e.2 ∧ s ≤ e.1.now ∧ e.1.now < s + 60) : ℤ) ≤ limit) ↔
        ∀ pre a post, arrivals = pre ++ a :: post →
          (isCounted accepts apiKey a = true →
            (keptInMinute { limit := limit } a.now (setsAfterApp accepts apiKey limit pre) ip : ℤ) <
              limit) →
          (keptInMinute { limit := limit } a.now (setsAfterApp accepts apiKey limit pre) ip +
            uncountedInMinute accepts apiKey halfOpenMinute a.now pre : ℤ) < limit)) := by
  constructor
  · obtain ⟨start, hstart⟩ := Window.exists_start hsorted
    refine Iff.trans (forall_congr' fun s => ?_) (answered_within_exact accepts apiKey
      (exact_allow hlimit) (knowsHits_start start) (fun hits now => hitsInMinute now hits)
      hitsInMinute_of_knows (by omega) hip hstart)
    have hsame : (fun e : Arrival × Except PyError Response =>
        decide (isAnswered e.2 = true ∧ s ≤ e.1.now ∧ e.1.now ≤ s + 60)) = fun e =>
        isAnswered e.2 && (decide (s ≤ e.1.now) && closedMinute.young e.1.now s) := by
      funext e
      simp [closedMinute]
    rw [hsame]
    exact Iff.rfl
  · intro hnow
    have hstart : (0 :: arrivals.map Arrival.now).Pairwise (· ≤ ·) := by
      refine List.pairwise_cons.mpr ⟨fun t ht => ?_, hsorted⟩
      obtain ⟨a, ha, rfl⟩ := List.mem_map.mp ht
      exact hnow a ha
    have hpos : 0 < ({ limit := limit } : RedisSlidingWindowRateLimiter).limit := hlimit
    refine Iff.trans (forall_congr' fun s => ?_) (answered_within_exact accepts apiKey
      (exact_allowNext hpos) (knowsSets_start le_rfl)
      (fun sets now => keptInMinute { limit := limit } now sets)
      keptInMinute_of_knows (by omega) hip hstart)
    have hsame : (fun e : Arrival × Except PyError Response =>
        decide (isAnswered e.2 = true ∧ s ≤ e.1.now ∧ e.1.now < s + 60)) = fun e =>
        isAnswered e.2 && (decide (s ≤ e.1.now) && halfOpenMinute.young e.1.now s) := by
      funext e
      simp [halfOpenMinute, sub_lt_iff_lt_add]
    rw [hsame]
    exact Iff.rfl

/-- A request for the jobs with a guess of the API key. -/
def guessArrival (now : ℚ) (guess : Str) : Arrival where
  now := now
  client := some "203.0.113.7".toList
  request :=
    { method := "GET".toList, scheme := .http, host := "localhost".toList, path := jobsPath
      headers := [("x-api-key".toList, guess)] }

open RateLimitMiddleware RedisSlidingWindowRateLimiter in
/-- A right key, and a wrong one after the minute. -/
theorem answered_within_iff_later :
    ((∀ s, ((answers (createAppInMemory (fun _ => true) "secret-key".toList 1) (fun _ => [])
        [guessArrival 0 "secret-key".toList, guessArrival 90 "guess".toList]).countP
        (fun e => isAnswered e.2 ∧ s ≤ e.1.now ∧ e.1.now ≤ s + 60) : ℤ) ≤ 1) ↔
      ∀ pre a post, [guessArrival 0 "secret-key".toList, guessArrival 90 "guess".toList] =
          pre ++ a :: post →
        (isCounted (fun _ => true) "secret-key".toList a = true →
          (hitsInMinute a.now (hitsAfterApp (fun _ => true) "secret-key".toList 1 pre)
            "203.0.113.7".toList : ℤ) < 1) →
        (hitsInMinute a.now (hitsAfterApp (fun _ => true) "secret-key".toList 1 pre)
          "203.0.113.7".toList +
          uncountedInMinute (fun _ => true) "secret-key".toList closedMinute a.now pre : ℤ) < 1) ∧
    ((∀ a ∈ [guessArrival 0 "secret-key".toList, guessArrival 90 "guess".toList], 0 ≤ a.now) →
      ((∀ s, ((answers (createAppRedis (fun _ => true) "secret-key".toList 1) (0, fun _ => {})
          [guessArrival 0 "secret-key".toList, guessArrival 90 "guess".toList]).countP
          (fun e => isAnswered e.2 ∧ s ≤ e.1.now ∧ e.1.now < s + 60) : ℤ) ≤ 1) ↔
        ∀ pre a post, [guessArrival 0 "secret-key".toList, guessArrival 90 "guess".toList] =
            pre ++ a :: post →
          (isCounted (fun _ => true) "secret-key".toList a = true →
            (keptInMinute { limit := 1 } a.now
              (setsAfterApp (fun _ => true) "secret-key".toList 1 pre)
              "203.0.113.7".toList : ℤ) < 1) →
          (keptInMinute { limit := 1 } a.now
              (setsAfterApp (fun _ => true) "secret-key".toList 1 pre) "203.0.113.7".toList +
            uncountedInMinute (fun _ => true) "secret-key".toList halfOpenMinute a.now pre : ℤ) <
              1)) :=
  answered_within_iff (fun _ => true) "secret-key".toList (by decide) (by decide +kernel)
    (by decide +kernel)

/-- Two guesses in a second, with a limit of one: both are answered with 401. -/
theorem not_answered_within :
    ¬ ∀ (accepts : Str → Bool) (apiKey : Str) (limit : ℤ) (ip : Str) (arrivals : List Arrival),
      apiKey ≠ [] → 1 ≤ limit →
      (∀ a ∈ arrivals, clientIp a = ip ∧ isPublicPath a.request.path = false) →
      (arrivals.map Arrival.now).Pairwise (· ≤ ·) →
      ∀ s, ((answers (createAppInMemory accepts apiKey limit) (fun _ => []) arrivals).countP
        (fun e => isAnswered e.2 ∧ s ≤ e.1.now ∧ e.1.now ≤ s + 60) : ℤ) ≤ limit := by
  intro hall
  have h := hall (fun _ => true) "secret-key".toList 1 "203.0.113.7".toList
    [guessArrival 0 "guess-a".toList, guessArrival 1 "guess-b".toList]
    (by decide) (by decide) (by decide +kernel) (by decide +kernel) 0
  have hcount : (answers (createAppInMemory (fun _ => true) "secret-key".toList 1) (fun _ => [])
      [guessArrival 0 "guess-a".toList, guessArrival 1 "guess-b".toList]).countP
      (fun e => isAnswered e.2 ∧ 0 ≤ e.1.now ∧ e.1.now ≤ 0 + 60) = 2 := by
    decide +kernel
  omega

end MarketplacePipeline
