import MarketplacePipeline.Crm.IdempotencyStore
import MarketplacePipeline.Jobs.JobIdempotencyStore
import MarketplacePipeline.Redis.Database

/-!
# The clients of the Redis database

With `redis_url` set, all replicas of the API and all workers use one Redis database, for four
things: the job idempotency store, the CRM idempotency store, the rate limiter and the job counters.
Celery has it as a broker.  `step` is what a request does to the database; `alone` is what it does
to a state that only its component has, as in the models of the components.
-/

namespace MarketplacePipeline.Redis

/-- What uses the database. -/
inductive Component
  | jobIdempotency
  | crmIdempotency
  | rateLimiter
  | metrics
  deriving DecidableEq

/-- How the keys of a component begin. -/
def Component.keyPrefix : Component → Str
  | .jobIdempotency => RedisJobIdempotencyStore.keyPrefix
  | .crmIdempotency => RedisIdempotencyStore.keyPrefix
  | .rateLimiter => "ratelimit:".toList
  | .metrics => "metrics:".toList

/-- A key of none of the components, such as a queue of Celery. -/
abbrev ForeignKey := { key : Str // ∀ i : Component, ¬ i.keyPrefix <+: key }

/-- The entries of `_REDIS_KEYS`. -/
inductive JobCounter
  | submitted
  | completed
  | failed

/-- `_REDIS_KEYS[...]`. -/
def JobCounter.redisKey : JobCounter → Str
  | .submitted => "metrics:pipeline_jobs_submitted".toList
  | .completed => "metrics:pipeline_jobs_completed".toList
  | .failed => "metrics:pipeline_jobs_failed".toList

/-- What a client asks Redis to do at once. -/
inductive Request
  /-- `RedisJobIdempotencyStore.get(key)`. -/
  | getJob (key : Str)
  /-- `RedisJobIdempotencyStore.reserve(key, job_id)`. -/
  | reserve (key jobId : Str)
  /-- `RedisIdempotencyStore.get(key)`. -/
  | getRecord (key : Str)
  /-- `RedisIdempotencyStore.put(key, record)`. -/
  | putRecord (key : Str) (record : IdempotencyRecord)
  /-- `pipe.execute()` in `RedisSlidingWindowRateLimiter.allow(client_key)`. -/
  | execute (clientKey member : Str) (now : ℚ)
  /-- `self._redis.zrem(redis_key, member)` in `allow(client_key)`. -/
  | zrem (clientKey member : Str)
  /-- `MetricsRegistry._redis_incr(key)`. -/
  | redisIncr (counter : JobCounter)
  /-- `MetricsRegistry._redis_get_int(key)`. -/
  | redisGetInt (counter : JobCounter)
  /-- Someone else sets or deletes a key. -/
  | foreign (key : ForeignKey) (entry : Option Entry)

/-- A request, and the time of the Redis server when it is executed. -/
structure Call where
  time : ℚ
  request : Request

/-- What the client gets. -/
inductive Answer
  | jobId (result : Except PyError (Option Str))
  | reserved (result : Except PyError Bool)
  | record (result : Except PyError (Option IdempotencyRecord))
  | count (result : Except PyError ℕ)
  | integer (result : Except PyError ℤ)
  | done (result : Except PyError Unit)

/-- The component that makes a call. -/
def Call.owner (call : Call) : Option Component :=
  match call.request with
  | .getJob _ | .reserve _ _ => some .jobIdempotency
  | .getRecord _ | .putRecord _ _ => some .crmIdempotency
  | .execute _ _ _ | .zrem _ _ => some .rateLimiter
  | .redisIncr _ | .redisGetInt _ => some .metrics
  | .foreign _ _ => none

/-- The configuration of the clients, and the JSON of pydantic. -/
structure Clients where
  /-- `job_idempotency_ttl_seconds`. -/
  ttlSeconds : ℕ+
  limitPerMinute : ℤ
  /-- `record.model_dump_json()`. -/
  dumpRecord : IdempotencyRecord → Str
  /-- `IdempotencyRecord.model_validate_json(raw)`, `none` if it raises. -/
  validateRecord : Str → Option IdempotencyRecord
  /-- How the exceptions of `int` show a text. -/
  text : JsonText

namespace Clients

variable (clients : Clients)

/-- The limiter of `RedisRateLimitMiddleware`. -/
def limiter : RedisSlidingWindowRateLimiter := { limit := clients.limitPerMinute }

/-! ### On the shared database -/

/-- `pipe.execute()`: all commands are executed, and then the first exception is raised. -/
def execute (key member : Str) (now time : ℚ) (db : Database) : Except PyError ℕ × Database :=
  let (removed, db) := zremrangebyscore time key 0 (now - 60) db
  let (added, db) := zadd time key member now db
  let (count, db) := zcard time key db
  let (_, db) := expire time key 61 db
  (do removed; added; count, db)

/-- `int(value) if value is not None else 0`. -/
def readCounter : Option Str → Except PyError ℤ
  | none => .ok 0
  | some value => clients.text.toInt (.str value)

/-- A call on the database that all share. -/
def step (call : Call) (db : Database) : Answer × Database :=
  match call.request with
  | .getJob key =>
    let (result, db) := get call.time (RedisJobIdempotencyStore.keyPrefix ++ key) db
    (.jobId result, db)
  | .reserve key jobId =>
    let (result, db) := setNxEx call.time (RedisJobIdempotencyStore.keyPrefix ++ key) jobId
      clients.ttlSeconds db
    (.reserved (.ok result), db)
  | .getRecord key =>
    let (raw, db) := get call.time (RedisIdempotencyStore.keyPrefix ++ key) db
    (.record (raw.map fun raw => raw.bind clients.validateRecord), db)
  | .putRecord key record =>
    (.done (.ok ()), set (RedisIdempotencyStore.keyPrefix ++ key) (clients.dumpRecord record) db)
  | .execute clientKey member now =>
    let (result, db) := execute (clients.limiter.redisKey clientKey) member now call.time db
    (.count result, db)
  | .zrem clientKey member =>
    let (result, db) := Redis.zrem call.time (clients.limiter.redisKey clientKey) member db
    (.done result, db)
  | .redisIncr counter =>
    let (result, db) := incr call.time counter.redisKey db
    (.integer result, db)
  | .redisGetInt counter =>
    let (value, db) := get call.time counter.redisKey db
    (.integer (value.bind clients.readCounter), db)
  | .foreign key entry => (.done (.ok ()), Function.update db key entry)

/-! ### Each component alone -/

/-- The state of a component. -/
abbrev State : Component → Type
  | .jobIdempotency => ReservationEntries
  | .crmIdempotency => Str → Option IdempotencyRecord
  | .rateLimiter => Str → SortedSet Str
  | .metrics => Str → Fin (2 ^ 63)

/-- What there is before the first call. -/
def State.empty : (i : Component) → State i
  | .jobIdempotency => fun _ => none
  | .crmIdempotency => fun _ => none
  | .rateLimiter => fun _ => {}
  | .metrics => fun _ => 0

open RedisSlidingWindowRateLimiter in
/-- A call of a component, on its own state. -/
def alone (i : Component) (call : Call) (s : State i) : Answer × State i :=
  match i, call.request, s with
  | .jobIdempotency, .getJob key, entries =>
    let (result, entries) := (redisJobIdempotencyStore clients.ttlSeconds).get call.time key entries
    (.jobId (.ok result), entries)
  | .jobIdempotency, .reserve key jobId, entries =>
    let (result, entries) :=
      (redisJobIdempotencyStore clients.ttlSeconds).reserve call.time key jobId entries
    (.reserved (.ok result), entries)
  | .crmIdempotency, .getRecord key, records =>
    (.record (.ok (redisIdempotencyStore.get key records)), records)
  | .crmIdempotency, .putRecord key record, records =>
    (.done (.ok ()), redisIdempotencyStore.put key record records)
  | .rateLimiter, .execute clientKey member now, sets =>
    let key := clients.limiter.redisKey clientKey
    let (count, z) := transaction member now call.time (sets key)
    (.count (.ok count), Function.update sets key z)
  | .rateLimiter, .zrem clientKey member, sets =>
    let key := clients.limiter.redisKey clientKey
    (.done (.ok ()), Function.update sets key (rollback member call.time (sets key)))
  | .metrics, .redisIncr counter, counters =>
    let n := counters counter.redisKey
    if n = Fin.last _ then (.integer (.error wouldOverflow), counters)
    else (.integer (.ok (n + 1 : ℕ)), Function.update counters counter.redisKey (n + 1))
  | .metrics, .redisGetInt counter, counters =>
    (.integer (.ok (counters counter.redisKey : ℕ)), counters)
  | _, _, s => (.done (.ok ()), s)

end Clients

end MarketplacePipeline.Redis
