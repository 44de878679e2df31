import MarketplacePipeline.Api.Equiv.AllowHistory
import MarketplacePipeline.Api.Middleware

/-!
# Clients that choose their bucket

`_client_ip` reads the bucket of a request from a header of the request, and a request whose URL
has a public path is not counted at all.  So the requests that pass the limiter together stay within
the limit only if no request finds room in its own bucket when the buckets together are full
(`passed_within_iff`).
-/

namespace MarketplacePipeline.RateLimitMiddleware

open Schedule SlidingWindow

variable {accepts : Str → Bool} {limit : ℤ} {a : Arrival} {hits : Str → List ℚ}

/-- The URL of a request has a public path. -/
def urlPublic (accepts : Str → Bool) (a : Arrival) : Bool :=
  match a.request.urlPath accepts with
  | .ok path => isPublicPath path
  | .error _ => false

/-- How the limiter treats a request. -/
def limitGate (accepts : Str → Bool) (a : Arrival) : Gate Str :=
  match a.request.urlPath accepts with
  | .ok path => if isPublicPath path then .pass else .limit (clientIp a)
  | .error _ => .block

/-- A request passes the limiter. -/
def isRouted (answer : Except PyError Response) : Bool :=
  match answer with
  | .ok .routed => true
  | _ => false

/-- The two limiters behind their gate. -/
theorem dispatchLimited_eq_gated {σ : Type} (accepts : Str → Bool)
    (allow : Str → ℚ → σ → Bool × σ) (a : Arrival) (s : σ) :
    (isRouted (dispatchLimited accepts allow routes a s).1,
        (dispatchLimited accepts allow routes a s).2) =
      Window.gated allow (limitGate accepts) Arrival.now a s := by
  unfold dispatchLimited Window.gated limitGate
  cases a.request.urlPath accepts with
  | error exc => rfl
  | ok path =>
    dsimp only
    by_cases hpublic : isPublicPath path = true
    · rw [if_pos hpublic, if_pos hpublic]
      rfl
    · rw [if_neg hpublic, if_neg hpublic]
      dsimp only
      cases allow (clientIp a) a.now s with
      | mk allowed s' => cases allowed <;> rfl

theorem dispatch_eq_gated (accepts : Str → Bool) (limit : ℤ) (a : Arrival)
    (hits : Str → List ℚ) :
    (isRouted (dispatch accepts limit routes a hits).1,
        (dispatch accepts limit routes a hits).2) =
      Window.gated (fun clientIp now hits => allow limit now clientIp hits) (limitGate accepts)
        Arrival.now a hits :=
  dispatchLimited_eq_gated accepts _ a hits

/-- The hits after some requests. -/
def hitsAfterArrivals (accepts : Str → Bool) (limit : ℤ) (arrivals : List Arrival) :
    Str → List ℚ :=
  run (fun a hits => (dispatch accepts limit routes a hits).2) (fun _ => []) arrivals

/-- The hits of all buckets in the 60 seconds before `now`, and the requests with a public URL. -/
def passedInMinute (accepts : Str → Bool) (limit : ℤ) (now : ℚ) (arrivals : List Arrival) : ℕ :=
  (∑ ip ∈ (arrivals.map clientIp).toFinset,
      hitsInMinute now (hitsAfterArrivals accepts limit arrivals) ip) +
    arrivals.countP fun a => urlPublic accepts a && decide (now - 60 ≤ a.now)

/-- A request has a public URL, or room in its bucket. -/
def HasRoom (accepts : Str → Bool) (limit : ℤ) (hits : Str → List ℚ) (a : Arrival) : Prop :=
  match a.request.urlPath accepts with
  | .ok path => isPublicPath path = true ∨ (hitsInMinute a.now hits (clientIp a) : ℤ) < limit
  | .error _ => False

theorem passes_limitGate : Window.Passes limit (hitsInMinute a.now hits) (limitGate accepts a) ↔
    HasRoom accepts limit hits a := by
  unfold limitGate HasRoom
  cases a.request.urlPath accepts with
  | error exc => exact Iff.rfl
  | ok path =>
    by_cases hpublic : isPublicPath path = true
    · simp [hpublic, Window.Passes]
    · simp [hpublic, Window.Passes]

theorem openCount_limitGate (now : ℚ) (arrivals : List Arrival) :
    closedMinute.openCount (limitGate accepts) Arrival.now now arrivals =
      arrivals.countP fun a => urlPublic accepts a && decide (now - 60 ≤ a.now) := by
  unfold Window.openCount
  apply List.countP_congr
  intro a _
  unfold limitGate urlPublic
  cases a.request.urlPath accepts with
  | error exc => simp
  | ok path =>
    by_cases hpublic : isPublicPath path = true
    · simp [hpublic, closedMinute]
    · simp [hpublic]

/-- The hits after some requests are those of the limiter behind its gate. -/
theorem hitsAfterArrivals_eq (arrivals : List Arrival) :
    run (fun a hits => (Window.gated (fun clientIp now hits => allow limit now clientIp hits)
      (limitGate accepts) Arrival.now a hits).2) (fun _ => []) arrivals =
      hitsAfterArrivals accepts limit arrivals := by
  unfold hitsAfterArrivals
  congr 1
  funext a hits
  rw [← dispatch_eq_gated]

theorem mem_clientIp_of_limitGate {arrivals : List Arrival} (ha : a ∈ arrivals) {ip : Str}
    (hip : (limitGate accepts a).key = some ip) : ip ∈ (arrivals.map clientIp).toFinset := by
  unfold limitGate at hip
  have hmem := List.mem_toFinset.mpr (List.mem_map_of_mem (f := clientIp) ha)
  split at hip
  · split_ifs at hip
    · cases hip
    · obtain rfl : clientIp a = ip := Option.some.inj hip
      exact hmem
  · cases hip

/-- **When the requests that pass the limiter stay within the limit**, whatever their headers are:
if and only if no request with a public URL or with room in its bucket comes when the requests of
all buckets, and those with a public URL, have reached the limit. -/
theorem passed_within_iff (accepts : Str → Bool) (hlimit : 1 ≤ limit) {arrivals : List Arrival}
    (hsorted : (arrivals.map Arrival.now).Pairwise (· ≤ ·)) :
    (∀ s, ((answers (dispatch accepts limit routes) (fun _ => []) arrivals).countP
        (fun e => isRouted e.2 ∧ s ≤ e.1.now ∧ e.1.now ≤ s + 60) : ℤ) ≤ limit) ↔
      ∀ pre a post, arrivals = pre ++ a :: post →
        HasRoom accepts limit (hitsAfterArrivals accepts limit pre) a →
        (passedInMinute accepts limit a.now pre : ℤ) < limit := by
  obtain ⟨start, hstart⟩ := Window.exists_start hsorted
  have hcount : ∀ s, (answers (dispatch accepts limit routes) (fun _ => []) arrivals).countP
      (fun e => isRouted e.2 ∧ s ≤ e.1.now ∧ e.1.now ≤ s + 60) =
      (answers (dispatch accepts limit routes) (fun _ => []) arrivals).countP fun e =>
        isRouted e.2 && (decide (s ≤ e.1.now) && closedMinute.young e.1.now s) := by
    intro s
    apply List.countP_congr
    intro e _
    simp [closedMinute]
  have hwindow := Window.bounded_passedTimes closedMinute limit
    (dispatch_eq_gated accepts limit) (s := fun _ => []) arrivals
  have hbounded := (exact_allow hlimit).bounded_iff (limitGate accepts)
    (knowsHits_start start) (fun hits now => hitsInMinute now hits) hitsInMinute_of_knows
    (fun pre => (pre.map clientIp).toFinset)
    (fun _ _ _ ha _ hip => mem_clientIp_of_limitGate ha hip) (by omega) hstart
  simp only [hcount]
  rw [← hwindow, hbounded]
  refine forall₄_congr fun pre a post _ => ?_
  rw [hitsAfterArrivals_eq, passes_limitGate, openCount_limitGate]
  rfl

/-- A request for the jobs, of one peer, with an `X-Forwarded-For` header. -/
def forwardedArrival (now : ℚ) (forwarded : Str) : Arrival where
  now := now
  client := some "203.0.113.7".toList
  request :=
    { method := "GET".toList, scheme := .http, host := "localhost".toList, path := jobsPath
      headers := [("x-forwarded-for".toList, forwarded)] }

/-- Two requests that name the same client. -/
theorem passed_within_iff_sameClient :
    (∀ s, ((answers (dispatch (fun _ => true) 1 routes) (fun _ => [])
        [forwardedArrival 0 ['a'], forwardedArrival 10 ['a']]).countP
        (fun e => isRouted e.2 ∧ s ≤ e.1.now ∧ e.1.now ≤ s + 60) : ℤ) ≤ 1) ↔
      ∀ pre a post, [forwardedArrival 0 ['a'], forwardedArrival 10 ['a']] = pre ++ a :: post →
        HasRoom (fun _ => true) 1 (hitsAfterArrivals (fun _ => true) 1 pre) a →
        (passedInMinute (fun _ => true) 1 a.now pre : ℤ) < 1 :=
  passed_within_iff (fun _ => true) (by decide) (by decide +kernel)

/-- A peer with a limit of one passes twice, as two clients. -/
theorem not_passed_within :
    ¬ ∀ (accepts : Str → Bool) (limit : ℤ) (peer : Str) (arrivals : List Arrival), 1 ≤ limit →
      (∀ a ∈ arrivals, a.client = some peer ∧ isPublicPath a.request.path = false) →
      (arrivals.map Arrival.now).Pairwise (· ≤ ·) →
      ∀ s, ((answers (dispatch accepts limit routes) (fun _ => []) arrivals).countP
        (fun e => isRouted e.2 ∧ s ≤ e.1.now ∧ e.1.now ≤ s + 60) : ℤ) ≤ limit := by
  intro hall
  have h := hall (fun _ => true) 1 "203.0.113.7".toList
    [forwardedArrival 0 "1.1.1.1".toList, forwardedArrival 1 "2.2.2.2".toList]
    (by decide) (by decide +kernel) (by decide +kernel) 0
  have hcount : (answers (dispatch (fun _ => true) 1 routes) (fun _ => [])
      [forwardedArrival 0 "1.1.1.1".toList, forwardedArrival 1 "2.2.2.2".toList]).countP
      (fun e => isRouted e.2 ∧ 0 ≤ e.1.now ∧ e.1.now ≤ 0 + 60) = 2 := by
    decide +kernel
  omega

end MarketplacePipeline.RateLimitMiddleware
