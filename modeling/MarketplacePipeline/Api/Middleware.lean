import MarketplacePipeline.Api.ApiKeyAuth
import MarketplacePipeline.Api.RateLimit

/-!
# The middleware of the API

`createApp` stacks the rate limiter and the API key middleware on the routes.  Starlette makes the
middleware that is added last the outermost one.  An app is a function of a request and of the
state `σ` of the rate limiter.
-/

namespace MarketplacePipeline

/-- A request that arrives: what the clock of the rate limiter reads, and `request.client.host`, the
TCP peer. -/
structure Arrival where
  now : ℚ
  client : Option Str
  request : ApiRequest

/-- `_client_ip(request)`. -/
def clientIp (arrival : Arrival) : Str :=
  let forwarded := arrival.request.header "x-forwarded-for".toList
  if forwarded ≠ [] then Str.strip (forwarded.takeWhile (· ≠ ','))
  else arrival.client.getD "unknown".toList

inductive Response
  /-- Status 401. -/
  | unauthorized (detail : Str)
  /-- Status 429. -/
  | rateLimited (detail retryAfter : Str)
  /-- What `RequestIdMiddleware` and the routes answer, never with status 429. -/
  | routed
  deriving DecidableEq

/-- `_rate_limit_response()`. -/
def rateLimitResponse : Response := .rateLimited "Rate limit exceeded".toList "60".toList

/-- An app: its response, or the exception for which the server answers 500. -/
abbrev App (σ : Type) := Arrival → σ → Except PyError Response × σ

section Middleware

variable {σ : Type} (accepts : Str → Bool)

/-- `dispatch` of the two rate limiters, which only differ in how they `allow` a client. -/
def dispatchLimited (allow : Str → ℚ → σ → Bool × σ) (callNext : App σ) : App σ :=
  fun arrival s =>
    match arrival.request.urlPath accepts with
    | .error exc => (.error exc, s)
    | .ok path =>
      if isPublicPath path then callNext arrival s
      else
        let (allowed, s) := allow (clientIp arrival) arrival.now s
        if allowed then callNext arrival s else (.ok rateLimitResponse, s)

/-- `RateLimitMiddleware.dispatch`. -/
def RateLimitMiddleware.dispatch (limitPerMinute : ℤ) (callNext : App (Str → List ℚ)) :
    App (Str → List ℚ) :=
  dispatchLimited accepts (fun clientIp now hits => allow limitPerMinute now clientIp hits) callNext

/-- `allow(client_key)` of a replica that handles its requests one after another; their members are
numbered. -/
def RedisSlidingWindowRateLimiter.allowNext (limiter : RedisSlidingWindowRateLimiter)
    (clientKey : Str) (now : ℚ) (s : ℕ × (Str → SortedSet ℕ)) :
    Bool × (ℕ × (Str → SortedSet ℕ)) :=
  let (allowed, db) := limiter.allow now clientKey s.1 s.2
  (allowed, (s.1 + 1, db))

/-- `RedisRateLimitMiddleware.dispatch`. -/
def RedisRateLimitMiddleware.dispatch (limitPerMinute : ℤ)
    (callNext : App (ℕ × (Str → SortedSet ℕ))) : App (ℕ × (Str → SortedSet ℕ)) :=
  dispatchLimited accepts
    (RedisSlidingWindowRateLimiter.allowNext { limit := limitPerMinute }) callNext

/-- `ApiKeyAuthMiddleware.dispatch`, in front of the next app. -/
def ApiKeyAuthMiddleware.guard (apiKey : Str) (callNext : App σ) : App σ := fun arrival s =>
  match ApiKeyAuthMiddleware.dispatch accepts apiKey arrival.request with
  | .error exc => (.error exc, s)
  | .ok (.unauthorized detail) => (.ok (.unauthorized detail), s)
  | .ok .callNext => callNext arrival s

/-- `RequestIdMiddleware` and the routes. -/
def routes : App σ := fun _ s => (.ok .routed, s)

/-- `app.add_middleware(...)`. -/
def addMiddleware (app : App σ) (middleware : App σ → App σ) : App σ := middleware app

/-- `create_app()` with the middleware that it adds for the rate limit. -/
def createApp (apiKey : Str) (rateLimit : App σ → App σ) : App σ :=
  [rateLimit, ApiKeyAuthMiddleware.guard accepts apiKey].foldl addMiddleware routes

/-- `create_app()` without `REDIS_URL`. -/
def createAppInMemory (apiKey : Str) (apiRateLimitPerMinute : ℤ) : App (Str → List ℚ) :=
  createApp accepts apiKey (RateLimitMiddleware.dispatch accepts apiRateLimitPerMinute)

/-- `create_app()` with `REDIS_URL`. -/
def createAppRedis (apiKey : Str) (apiRateLimitPerMinute : ℤ) :
    App (ℕ × (Str → SortedSet ℕ)) :=
  createApp accepts apiKey (RedisRateLimitMiddleware.dispatch accepts apiRateLimitPerMinute)

end Middleware

end MarketplacePipeline
