import MarketplacePipeline.Algorithm.Schedule
import MarketplacePipeline.Python.Text
import Mathlib.Algebra.Field.Rat
import Mathlib.Algebra.Order.Ring.Rat
import Mathlib.Data.Finset.Card
import Mathlib.Logic.Function.Basic

/-!
# The rate limiters of the API

`RateLimitMiddleware.allow` keeps the times of the admitted requests of every client in the process,
`RedisSlidingWindowRateLimiter.allow` keeps them in a Redis sorted set that all replicas share.

`AllowState` is the Redis limiter as a system of requests of one client: any number of them share
the set, and a step of a request is its reading of the clock, its transaction, or its `zrem`, made
some time after the previous step of the system.
-/

namespace MarketplacePipeline

namespace RateLimitMiddleware

/-- `_allow(client_ip)` at the reading `now` of `time.monotonic()`. -/
def allow (limit : ℤ) (now : ℚ) (clientIp : Str) (hits : Str → List ℚ) :
    Bool × (Str → List ℚ) :=
  if limit ≤ 0 then (true, hits)
  else
    let windowStart := now - 60
    let recent := (hits clientIp).filter fun ts => windowStart ≤ ts
    if limit ≤ recent.length then (false, Function.update hits clientIp recent)
    else (true, Function.update hits clientIp (recent ++ [now]))

end RateLimitMiddleware

/-! ### Sorted sets of Redis -/

/-- A sorted set: its members with their scores, and the time when the key expires. -/
structure SortedSet (μ : Type) where
  entries : Finset (μ × ℚ) := ∅
  expiresAt : ℚ := 0

namespace SortedSet

variable {μ : Type} [DecidableEq μ]

/-- The entries at `time`: an expired key does not exist. -/
def live (z : SortedSet μ) (time : ℚ) : Finset (μ × ℚ) :=
  if z.expiresAt < time then ∅ else z.entries

/-- `ZREMRANGEBYSCORE`, with both bounds inclusive. -/
def zremrangebyscore (entries : Finset (μ × ℚ)) (min max : ℚ) : Finset (μ × ℚ) :=
  entries.filter fun e => ¬ (min ≤ e.2 ∧ e.2 ≤ max)

/-- `ZREM`. -/
def zrem (entries : Finset (μ × ℚ)) (member : μ) : Finset (μ × ℚ) :=
  entries.filter fun e => e.1 ≠ member

/-- `ZADD`, which replaces the score of a member that is present. -/
def zadd (entries : Finset (μ × ℚ)) (member : μ) (score : ℚ) : Finset (μ × ℚ) :=
  insert (member, score) (zrem entries member)

end SortedSet

/-! ### The Redis limiter -/

/-- The limiter of a replica. -/
structure RedisSlidingWindowRateLimiter where
  limit : ℤ
  keyPrefix : Str := "ratelimit".toList

namespace RedisSlidingWindowRateLimiter

open SortedSet

variable {μ ι : Type} [DecidableEq μ] (limiter : RedisSlidingWindowRateLimiter)

/-- `f"{self._key_prefix}:{client_key}"`. -/
def redisKey (clientKey : Str) : Str := limiter.keyPrefix ++ ":".toList ++ clientKey

/-- `pipe.execute()` at `time`, for a request that read `now`: the `zcard`, and the set it leaves.
The member is `f"{now}:{uuid}"`, unique to the request. -/
def transaction (member : μ) (now time : ℚ) (z : SortedSet μ) : ℕ × SortedSet μ :=
  let windowStart := now - 60
  let entries := zadd (zremrangebyscore (z.live time) 0 windowStart) member now
  (entries.card, ⟨entries, time + 61⟩)

/-- `self._redis.zrem(redis_key, member)` at `time`. -/
def rollback (member : μ) (time : ℚ) (z : SortedSet μ) : SortedSet μ :=
  { z with entries := zrem (z.live time) member }

/-- `allow(client_key)` at the reading `now` of `time.time()`, when no other request comes in
between. -/
def allow (now : ℚ) (clientKey : Str) (member : μ) (db : Str → SortedSet μ) :
    Bool × (Str → SortedSet μ) :=
  if limiter.limit ≤ 0 then (true, db)
  else
    let key := limiter.redisKey clientKey
    let (count, z) := transaction member now now (db key)
    if limiter.limit < count then (false, Function.update db key (rollback member now z))
    else (true, Function.update db key z)

/-! ### Concurrent requests of one client -/

/-- Where a request stands in `allow`. -/
inductive AllowPc
  | readClock
  /-- `pipe.execute()` is next, for the clock reading `now`. -/
  | execute (now : ℚ)
  /-- The request is over the limit: its `zrem` is next. -/
  | zrem (now : ℚ)
  | returned (now : ℚ) (allowed : Bool)
  deriving DecidableEq

/-- The sorted set of the client, and the clock that replicas and Redis share. -/
structure AllowWorld (ι : Type) where
  zset : SortedSet ι
  clock : ℚ≥0

/-- Requests that share a world. -/
abbrev AllowState (ι : Type) := Schedule.Interleaved ι AllowPc (AllowWorld ι)

variable [DecidableEq ι]

/-- The next step of request `i`, at `time`. -/
def allowStep (i : ι) (time : ℚ) : AllowPc → SortedSet ι → AllowPc × SortedSet ι
  | .readClock, z => (if limiter.limit ≤ 0 then .returned time true else .execute time, z)
  | .execute now, z =>
    let (count, z) := transaction i now time z
    (if limiter.limit < count then .zrem now else .returned now true, z)
  | .zrem now, z => (.returned now false, rollback i time z)
  | .returned now allowed, z => (.returned now allowed, z)

/-- The next step of request `i`, some time after the last step of any request. -/
def clockedStep (i : ι) (elapsed : ℚ≥0) (pc : AllowPc) (w : AllowWorld ι) :
    AllowPc × AllowWorld ι :=
  ((limiter.allowStep i (w.clock + elapsed : ℚ≥0) pc w.zset).1,
    { zset := (limiter.allowStep i (w.clock + elapsed : ℚ≥0) pc w.zset).2
      clock := w.clock + elapsed })

/-- Request `a.1` takes its next step, after the time `a.2`. -/
def step (a : ι × ℚ≥0) : AllowState ι → AllowState ι :=
  Schedule.stepParty (limiter.clockedStep a.1 a.2) a.1

/-- No request has started, and the key of the client does not exist. -/
def start (clock : ℚ≥0) : AllowState ι := ⟨⟨{}, clock⟩, fun _ => .readClock⟩

end RedisSlidingWindowRateLimiter

end MarketplacePipeline
