import MarketplacePipeline.Algorithm.SharedState
import MarketplacePipeline.Python.Equiv.JsonDumps
import MarketplacePipeline.Redis.Clients
import MarketplacePipeline.Redis.Equiv.Database

/-!
# The clients do not notice each other

No key begins with the prefixes of two components (`keyPrefix_unique`), so a call changes what is
live under the keys of its own component only.  Under these, the database shows the state of the
component (`view`), and a call answers and changes it as it does alone (`separate`).
-/

namespace MarketplacePipeline.Redis

open Database JsonDumps SharedState

/-! ### Keys -/

/-- The keys of a component. -/
def Component.Owns (i : Component) (key : Str) : Prop := i.keyPrefix <+: key

theorem keyPrefix_unique {i j : Component} {key : Str} (hi : i.Owns key) (hj : j.Owns key) :
    i = j := by
  have hprefix := List.prefix_or_prefix_of_prefix hi hj
  revert hprefix
  cases i <;> cases j <;> decide

theorem JobCounter.owns (counter : JobCounter) : Component.metrics.Owns counter.redisKey := by
  unfold Component.Owns
  cases counter <;> decide

/-- The key that a request is about. -/
def Clients.keyOf (clients : Clients) : Request → Str
  | .getJob key | .reserve key _ => RedisJobIdempotencyStore.keyPrefix ++ key
  | .getRecord key | .putRecord key _ => RedisIdempotencyStore.keyPrefix ++ key
  | .execute clientKey _ _ | .zrem clientKey _ => clients.limiter.redisKey clientKey
  | .redisIncr counter | .redisGetInt counter => counter.redisKey
  | .foreign key _ => key

variable {clients : Clients}

theorem owns_redisKey (clients : Clients) (clientKey : Str) :
    Component.rateLimiter.Owns (clients.limiter.redisKey clientKey) := ⟨clientKey, rfl⟩

/-- A request is about a key of the component that makes it, or of none. -/
theorem owner_eq_some_iff (clients : Clients) (i : Component) (call : Call) :
    call.owner = some i ↔ i.Owns (clients.keyOf call.request) := by
  obtain ⟨time, request⟩ := call
  have howner : ∀ j, Call.owner ⟨time, request⟩ = some j → j.Owns (clients.keyOf request) := by
    intro j hj
    cases request with
    | getJob key | reserve key | getRecord key | putRecord key =>
      cases hj
      exact List.prefix_append _ _
    | execute clientKey | zrem clientKey =>
      cases hj
      exact owns_redisKey clients clientKey
    | redisIncr counter | redisGetInt counter =>
      cases hj
      exact counter.owns
    | foreign => cases hj
  -- no prefix of a component begins another one, so a key has one owner
  refine ⟨howner i, fun howns => ?_⟩
  cases hcall : Call.owner ⟨time, request⟩ with
  | some j => rw [keyPrefix_unique howns (howner j hcall)]
  | none =>
    cases request with
    | foreign key => exact absurd howns (key.2 i)
    | _ => cases hcall

/-! ### A transaction of the limiter -/

/-- What the commands of a transaction leave of a sorted set. -/
def admitMember (member : Str) (now : ℚ) (entries : Finset (Str × ℚ)) : Finset (Str × ℚ) :=
  SortedSet.zadd (SortedSet.zremrangebyscore entries 0 (now - 60)) member now

/-- `pipe.execute()` does what its commands do to the sorted set. -/
theorem execute_of_live {time : ℚ} {key : Str} {db : Database} {entries : Finset (Str × ℚ)}
    (member : Str) (now : ℚ) (h : db.live time key = ofMembers entries) :
    (Clients.execute key member now time db).1 = .ok (admitMember member now entries).card ∧
      Changes time key
        (fun t => if t ≤ time + 61 then ofMembers (admitMember member now entries) else none) db
        (Clients.execute key member now time db).2 := by
  -- each command leaves the set of the model live, and only the last one sets the time to live
  obtain ⟨hremovedOk, hremoved⟩ : (zremrangebyscore time key 0 (now - 60) db).1 = .ok () ∧
      ∃ f, Changes time key f db (zremrangebyscore time key 0 (now - 60) db).2 :=
    ⟨(onSortedSet_of_live h).1, _, (onSortedSet_of_live h).2⟩
  have hlive : live time key (zremrangebyscore time key 0 (now - 60) db).2 =
      ofMembers (SortedSet.zremrangebyscore entries 0 (now - 60)) := live_onSortedSet h
  unfold Clients.execute
  dsimp only
  generalize zremrangebyscore time key 0 (now - 60) db = removed at *
  obtain ⟨haddedOk, hadded⟩ : (zadd time key member now removed.2).1 = .ok () ∧
      ∃ f, Changes time key f removed.2 (zadd time key member now removed.2).2 :=
    ⟨(onSortedSet_of_live hlive).1, _, (onSortedSet_of_live hlive).2⟩
  have hlive' : live time key (zadd time key member now removed.2).2 =
      ofMembers (admitMember member now entries) := live_onSortedSet hlive
  generalize zadd time key member now removed.2 = added at *
  obtain ⟨_, hremoved⟩ := hremoved
  obtain ⟨_, hadded⟩ := hadded
  rw [zcard_of_live hlive', hremovedOk, haddedOk]
  refine ⟨rfl, ?_⟩
  apply hremoved.trans
  apply hadded.trans
  apply (changes_expireIfNeeded time key added.2).trans
  apply (changes_expire time key 61 _).congr
  intro t _
  show (if t ≤ time + 61 then live time key (expireIfNeeded time key added.2) else none) = _
  rw [(changes_expireIfNeeded time key added.2).live_self le_rfl, hlive']

/-- `ZREM` leaves the time when the set expires. -/
theorem ofMembers_rollback {time t : ℚ} (member : Str) (z : SortedSet Str) (ht : time ≤ t) :
    (if z.live time = ∅ then ofMembers (SortedSet.zrem (z.live time) member)
      else (ofMembers (z.live t)).bind fun _ => ofMembers (SortedSet.zrem (z.live time) member)) =
      ofMembers ((RedisSlidingWindowRateLimiter.rollback member time z).live t) := by
  unfold RedisSlidingWindowRateLimiter.rollback SortedSet.live
  dsimp only
  by_cases hexpired : z.expiresAt < t
  · rw [if_pos hexpired, if_pos hexpired]
    split_ifs with hnow hempty hempty
    · rfl
    · rfl
    · rw [hempty]
      rfl
    · rfl
  · have hnow : ¬ z.expiresAt < time := fun hlt => hexpired (hlt.trans_le ht)
    rw [if_neg hexpired, if_neg hexpired, if_neg hnow]
    split_ifs with hempty
    · rfl
    · rw [ofMembers, if_neg hempty, Option.bind_some]

/-! ### What the database shows of a component -/

namespace Clients

/-- The values that stand for the state of a component. -/
def view (clients : Clients) (i : Component) (s : State i) (t : ℚ) (key : Str) : Option Value :=
  match i, s with
  | .jobIdempotency, entries => (entries.live key t).map .string
  | .crmIdempotency, records => (records key).map fun record => .string (clients.dumpRecord record)
  | .rateLimiter, sets => ofMembers ((sets key).live t)
  | .metrics, counters => counterValue (counters key)

/-- From `time` on, the keys of a component show its state. -/
def Shows (clients : Clients) (i : Component) (time : ℚ) (db : Database) (s : State i) : Prop :=
  ∀ t, time ≤ t → ∀ key, i.Owns key → db.live t key = clients.view i s t key

variable {i : Component} {time t : ℚ} {key : Str} {f : ℚ → Option Value} {db db' : Database}
  {s s' : State i}

theorem Shows.mono (h : clients.Shows i time db s) (ht : time ≤ t) : clients.Shows i t db s :=
  fun t' ht' => h t' (ht.trans ht')

/-- A change under a key of the component. -/
theorem Shows.of_changes (h : clients.Shows i time db s) (hchanges : Changes time key f db db')
    (hself : ∀ t, time ≤ t → f t = clients.view i s' t key)
    (hother : ∀ t, ∀ k ≠ key, clients.view i s' t k = clients.view i s t k) :
    clients.Shows i time db' s' := by
  intro t ht k hk
  rw [hchanges t ht k]
  split_ifs with hkey
  · rw [hself t ht, hkey]
  · rw [h t ht k hk, hother t k hkey]

/-- A change under a key of another component, or of none. -/
theorem Shows.of_not_owns (h : clients.Shows i time db s) (htouches : Touches time key db db')
    (hkey : ¬ i.Owns key) : clients.Shows i time db' s := by
  obtain ⟨_, hchanges⟩ := htouches
  intro t ht k hk
  have hne : k ≠ key := by
    rintro rfl
    exact hkey hk
  rw [hchanges t ht k, if_neg hne, h t ht k hk]

/-- A command that changes nothing. -/
theorem Shows.expireIfNeeded (h : clients.Shows i time db s) (key : Str) :
    clients.Shows i time (db.expireIfNeeded time key) s := by
  intro t ht k hk
  rw [changes_expireIfNeeded time key db t ht k]
  split_ifs with hkey
  · rw [← hkey]
    exact h t ht k hk
  · exact h t ht k hk

/-! ### Calls of a component -/

theorem touches_step (clients : Clients) (call : Call) (db : Database) :
    Touches call.time (clients.keyOf call.request) db (clients.step call db).2 := by
  obtain ⟨time, request⟩ := call
  cases request with
  | getJob key => exact touches_get ..
  | reserve key jobId => exact touches_setNxEx ..
  | getRecord key => exact touches_get ..
  | putRecord key record => exact touches_update ..
  | execute clientKey member now =>
    exact (touches_onSortedSet ..).trans ((touches_onSortedSet ..).trans
      ((touches_expireIfNeeded ..).trans (touches_expire ..)))
  | zrem clientKey member => exact touches_onSortedSet ..
  | redisIncr counter => exact touches_incr ..
  | redisGetInt counter => exact touches_get ..
  | foreign key entry => exact touches_update ..

/-- A call answers and changes the state of its component as it does alone. -/
def Agrees (clients : Clients) (i : Component) (call : Call) (db : Database) (s : State i) : Prop :=
  (clients.step call db).1 = (clients.alone i call s).1 ∧
    clients.Shows i call.time (clients.step call db).2 (clients.alone i call s).2

theorem agrees_getJob {entries : ReservationEntries}
    (h : clients.Shows .jobIdempotency time db entries) (k : Str) :
    clients.Agrees .jobIdempotency ⟨time, .getJob k⟩ db entries := by
  have hget := get_of_live
    (h time le_rfl (RedisJobIdempotencyStore.keyPrefix ++ k) (List.prefix_append _ _))
  refine ⟨?_, ?_⟩
  · show Answer.jobId (get time _ db).1 = _
    rw [hget]
    rfl
  · show clients.Shows .jobIdempotency time (get time _ db).2 entries
    rw [hget]
    exact h.expireIfNeeded _

theorem agrees_reserve {entries : ReservationEntries}
    (h : clients.Shows .jobIdempotency time db entries) (k jobId : Str) :
    clients.Agrees .jobIdempotency ⟨time, .reserve k jobId⟩ db entries := by
  have hlive := h time le_rfl (RedisJobIdempotencyStore.keyPrefix ++ k) (List.prefix_append _ _)
  unfold view at hlive
  dsimp only at hlive
  show Answer.reserved (.ok (setNxEx time (RedisJobIdempotencyStore.keyPrefix ++ k) jobId
        clients.ttlSeconds db).1) =
      .reserved (.ok (RedisJobIdempotencyStore.reserve clients.ttlSeconds time k jobId entries).1) ∧
    clients.Shows .jobIdempotency time (setNxEx time (RedisJobIdempotencyStore.keyPrefix ++ k) jobId
        clients.ttlSeconds db).2
      (RedisJobIdempotencyStore.reserve clients.ttlSeconds time k jobId entries).2
  unfold RedisJobIdempotencyStore.reserve
  cases hentry : entries.live (RedisJobIdempotencyStore.keyPrefix ++ k) time with
  | some holder =>
    rw [hentry] at hlive
    rw [setNxEx_of_some hlive]
    exact ⟨rfl, h.expireIfNeeded _⟩
  | none =>
    rw [hentry] at hlive
    obtain ⟨htrue, hchanges⟩ : (setNxEx time (RedisJobIdempotencyStore.keyPrefix ++ k) jobId
        clients.ttlSeconds db).1 = true ∧ _ := setNxEx_of_none hlive
    refine ⟨by rw [htrue], h.of_changes hchanges (fun t _ => ?_) fun t k' hk' => ?_⟩
    · unfold view
      dsimp only
      rw [ReservationEntries.live_update_some, if_pos rfl]
      split_ifs <;> rfl
    · unfold view
      dsimp only
      rw [ReservationEntries.live_update_some, if_neg hk']

theorem agrees_getRecord {records : Str → Option IdempotencyRecord}
    (hvalidate : ∀ record, clients.validateRecord (clients.dumpRecord record) = some record)
    (h : clients.Shows .crmIdempotency time db records) (k : Str) :
    clients.Agrees .crmIdempotency ⟨time, .getRecord k⟩ db records := by
  have hlive : db.live time (RedisIdempotencyStore.keyPrefix ++ k) =
      ((records (RedisIdempotencyStore.keyPrefix ++ k)).map clients.dumpRecord).map .string := by
    rw [Option.map_map]
    exact h time le_rfl _ (List.prefix_append _ _)
  refine ⟨?_, ?_⟩
  · show Answer.record ((get time _ db).1.map fun raw => raw.bind clients.validateRecord) =
      .record (.ok (records _))
    rw [get_of_live hlive]
    cases records (RedisIdempotencyStore.keyPrefix ++ k) with
    | none => rfl
    | some record => exact congrArg (fun found => Answer.record (.ok found)) (hvalidate record)
  · show clients.Shows .crmIdempotency time (get time _ db).2 records
    rw [get_of_live hlive]
    exact h.expireIfNeeded _

theorem agrees_putRecord {records : Str → Option IdempotencyRecord}
    (h : clients.Shows .crmIdempotency time db records) (k : Str) (record : IdempotencyRecord) :
    clients.Agrees .crmIdempotency ⟨time, .putRecord k record⟩ db records := by
  have hchanges := changes_set time (RedisIdempotencyStore.keyPrefix ++ k)
    (clients.dumpRecord record) db
  refine ⟨rfl, h.of_changes hchanges (fun t _ => ?_) fun t k' hk' => ?_⟩
  · show some _ = (Function.update records _ (some record) _).map _
    rw [Function.update_self, Option.map_some]
  · show (Function.update records _ (some record) k').map _ = (records k').map _
    rw [Function.update_of_ne hk']

theorem agrees_execute {sets : Str → SortedSet Str} (h : clients.Shows .rateLimiter time db sets)
    (clientKey member : Str) (now : ℚ) :
    clients.Agrees .rateLimiter ⟨time, .execute clientKey member now⟩ db sets := by
  have hlive := h time le_rfl (clients.limiter.redisKey clientKey) (owns_redisKey clients clientKey)
  obtain ⟨hcount, hchanges⟩ := execute_of_live member now hlive
  refine ⟨?_, h.of_changes hchanges (fun t _ => ?_) fun t k' hk' => ?_⟩
  · exact congrArg Answer.count hcount
  · show _ = ofMembers ((Function.update sets _ _ _ : SortedSet Str).live t)
    rw [Function.update_self]
    show _ = ofMembers (if time + 61 < t then ∅ else admitMember member now _)
    by_cases hle : t ≤ time + 61
    · rw [if_pos hle, if_neg (not_lt.mpr hle)]
    · rw [if_neg hle, if_pos (not_le.mp hle)]
      rfl
  · show ofMembers ((Function.update sets _ _ k' : SortedSet Str).live t) = _
    rw [Function.update_of_ne hk']
    rfl

theorem agrees_zrem {sets : Str → SortedSet Str} (h : clients.Shows .rateLimiter time db sets)
    (clientKey member : Str) :
    clients.Agrees .rateLimiter ⟨time, .zrem clientKey member⟩ db sets := by
  have hlives := fun t ht =>
    h t ht (clients.limiter.redisKey clientKey) (owns_redisKey clients clientKey)
  obtain ⟨hok, hchanges⟩ :
      (Redis.zrem time (clients.limiter.redisKey clientKey) member db).1 = .ok () ∧ _ :=
    onSortedSet_of_live (hlives time le_rfl)
  refine ⟨congrArg Answer.done hok, h.of_changes hchanges (fun t ht => ?_) fun t k' hk' => ?_⟩
  · show _ = ofMembers ((Function.update sets _ _ _ : SortedSet Str).live t)
    rw [Function.update_self, hlives t ht]
    exact ofMembers_rollback member _ ht
  · show ofMembers ((Function.update sets _ _ k' : SortedSet Str).live t) = _
    rw [Function.update_of_ne hk']
    rfl

theorem agrees_redisIncr {counters : Str → Fin (2 ^ 63)}
    (h : clients.Shows .metrics time db counters) (counter : JobCounter) :
    clients.Agrees .metrics ⟨time, .redisIncr counter⟩ db counters := by
  have hlives : ∀ t, time ≤ t →
      db.live t counter.redisKey = counterValue (counters counter.redisKey) :=
    fun t ht => h t ht counter.redisKey counter.owns
  unfold Agrees alone
  show Answer.integer (incr time counter.redisKey db).1 = _ ∧
    clients.Shows .metrics time (incr time counter.redisKey db).2 _
  dsimp only
  by_cases hmax : counters counter.redisKey = Fin.last _
  · have hn : ((counters counter.redisKey : ℕ) : ℤ) = maxInteger := by
      rw [hmax]
      rfl
    rw [if_pos hmax, incr_of_max hn (hlives time le_rfl)]
    exact ⟨rfl, h.expireIfNeeded _⟩
  · have hlt : counters counter.redisKey < Fin.last _ := Fin.lt_last_iff_ne_last.mpr hmax
    have hn : ((counters counter.redisKey : ℕ) : ℤ) < maxInteger := by
      have := Fin.lt_def.mp hlt
      unfold maxInteger
      rw [Fin.val_last] at this
      omega
    obtain ⟨hok, hchanges⟩ := incr_of_live hn hlives
    rw [if_neg hmax, hok]
    refine ⟨rfl, h.of_changes hchanges (fun t _ => ?_) fun t k' hk' => ?_⟩
    · show _ = counterValue (Function.update counters _ _ _ : Fin (2 ^ 63))
      rw [Function.update_self, Fin.val_add_one_of_lt hlt]
    · show counterValue (Function.update counters _ _ k' : Fin (2 ^ 63)) = _
      rw [Function.update_of_ne hk']
      rfl

/-- `_redis_get_int` reads what `INCR` has written. -/
theorem readCounter_counterText (clients : Clients) {n : ℕ} (hn : n < 2 ^ 63) :
    clients.readCounter (counterText n) = .ok (n : ℤ) := by
  have hlength : (Nat.toDigits 10 n).length ≤ 19 :=
    (Nat.length_toDigits_le_iff (by decide) (by decide)).mpr (by omega)
  unfold counterText
  split_ifs with hzero
  · rw [hzero]
    rfl
  · apply Number.toInt_intText
    rw [Int.natAbs_natCast]
    omega

theorem agrees_redisGetInt {counters : Str → Fin (2 ^ 63)}
    (h : clients.Shows .metrics time db counters) (counter : JobCounter) :
    clients.Agrees .metrics ⟨time, .redisGetInt counter⟩ db counters := by
  have hget := get_of_live (h time le_rfl counter.redisKey counter.owns)
  refine ⟨?_, ?_⟩
  · show Answer.integer ((get time _ db).1.bind clients.readCounter) = _
    rw [hget]
    exact congrArg Answer.integer (readCounter_counterText clients (counters counter.redisKey).isLt)
  · show clients.Shows .metrics time (get time _ db).2 counters
    rw [hget]
    exact h.expireIfNeeded _

/-! ### Calls of all components -/

theorem separate (clients : Clients)
    (hvalidate : ∀ record, clients.validateRecord (clients.dumpRecord record) = some record) :
    Separate clients.step clients.alone Call.owner Call.time clients.Shows where
  mono ht h := h.mono ht
  own {i call db s} howner h := by
    show clients.Agrees i call db s
    obtain ⟨time, request⟩ := call
    cases request with
    | getJob key =>
      cases howner
      exact agrees_getJob h key
    | reserve key jobId =>
      cases howner
      exact agrees_reserve h key jobId
    | getRecord key =>
      cases howner
      exact agrees_getRecord hvalidate h key
    | putRecord key record =>
      cases howner
      exact agrees_putRecord h key record
    | execute clientKey member now =>
      cases howner
      exact agrees_execute h clientKey member now
    | zrem clientKey member =>
      cases howner
      exact agrees_zrem h clientKey member
    | redisIncr counter =>
      cases howner
      exact agrees_redisIncr h counter
    | redisGetInt counter =>
      cases howner
      exact agrees_redisGetInt h counter
    | foreign => cases howner
  other {i call db s} howner h :=
    h.of_not_owns (touches_step clients call db) fun howns =>
      howner ((owner_eq_some_iff clients i call).mpr howns)

/-- No key of the component exists. -/
theorem shows_empty (hdb : ∀ key, i.Owns key → db key = none) :
    clients.Shows i time db (State.empty i) := by
  intro t _ key hkey
  rw [live_of_none (hdb key hkey)]
  cases i with
  | jobIdempotency => rfl
  | crmIdempotency => rfl
  | rateLimiter =>
    show none = ofMembers (if (0 : ℚ) < t then ∅ else ∅)
    rw [ite_self]
    rfl
  | metrics => rfl

/-- **Every component gets from the shared database what it would get from one of its own.** -/
theorem answers_alone (clients : Clients)
    (hvalidate : ∀ record, clients.validateRecord (clients.dumpRecord record) = some record)
    {db : Database} (i : Component) (hdb : ∀ key, i.Owns key → db key = none) {calls : List Call}
    (hsorted : calls.Pairwise fun a b => a.time ≤ b.time) :
    answersTo Call.owner i (answered clients.step db calls) =
      answered (clients.alone i) (State.empty i) (callsOf Call.owner i calls) := by
  cases calls with
  | nil => rfl
  | cons call calls =>
    refine answersTo_eq (separate clients hvalidate) (t := call.time) (shows_empty hdb) ?_ hsorted
    intro a ha
    rcases List.mem_cons.mp ha with rfl | ha
    · exact le_rfl
    · exact List.rel_of_pairwise_cons hsorted ha

/-! ### An instance -/

/-- The integer of `intText`. -/
def readTime (text : Str) : Option Timestamp :=
  (Number.readInt text).map fun (negative, digits) =>
    if negative then -(Number.ofDigits digits : ℤ) else Number.ofDigits digits

/-- A record as JSON, with the time as an integer in a text. -/
def recordJson (record : IdempotencyRecord) : Json :=
  .dict [("task_id".toList, .str record.taskId), ("title".toList, .str record.title),
    ("idempotency_key".toList, .str record.idempotencyKey),
    ("created_at".toList, .str (intText record.createdAt))]

def recordOfJson : Json → Option IdempotencyRecord
  | .dict [(_, .str taskId), (_, .str title), (_, .str idempotencyKey), (_, .str createdAt)] =>
    (readTime createdAt).map (⟨taskId, title, idempotencyKey, ·⟩)
  | _ => none

/-- Clients that read records with `json.loads`. -/
def jsonClients : Clients where
  ttlSeconds := 3600
  limitPerMinute := 1
  dumpRecord record := dumps .compact (recordJson record)
  validateRecord raw :=
    match JsonLoads.loads id id raw with
    | .ok value => recordOfJson value
    | .error _ => none
  text := JsonLoads.jsonText id id fun _ => []

theorem jsonClients_validateRecord (record : IdempotencyRecord) :
    jsonClients.validateRecord (jsonClients.dumpRecord record) = some record := by
  have hwell : JsonGrammar.WellFormed id (recordJson record) := by
    have hkeys : ["task_id".toList, "title".toList, "idempotency_key".toList,
      "created_at".toList].Nodup := by decide
    refine .dict hkeys ?_
    intro field hfield
    simp only [List.mem_cons, List.not_mem_nil, or_false] at hfield
    rcases hfield with rfl | rfl | rfl | rfl <;> exact .str _
  unfold jsonClients
  dsimp only
  rw [JsonGrammar.loads_dumps .compact id hwell]
  unfold recordJson recordOfJson readTime
  dsimp only
  rw [Number.readInt_intText]
  simp only [Option.map_some, Number.ofDigits_toDigits, Number.signed_natAbs]

/-- Two requests of a caller, the second over the limit, while Celery has a queue. -/
def twoRequests : List Call :=
  [⟨0, .execute "caller".toList "0:a".toList 0⟩,
    ⟨0, .reserve "key".toList "job".toList⟩,
    ⟨0, .redisIncr .submitted⟩,
    ⟨1, .foreign ⟨"celery".toList, fun i => by cases i <;> decide⟩ (some ⟨.other, none⟩)⟩,
    ⟨2, .execute "caller".toList "2:b".toList 2⟩,
    ⟨2, .zrem "caller".toList "2:b".toList⟩,
    ⟨3, .getJob "key".toList⟩]

theorem answers_alone_twoRequests :
    answersTo Call.owner .rateLimiter (answered jsonClients.step (fun _ => none) twoRequests) =
      answered (jsonClients.alone .rateLimiter) (State.empty .rateLimiter)
        (callsOf Call.owner .rateLimiter twoRequests) :=
  answers_alone jsonClients jsonClients_validateRecord .rateLimiter (fun _ _ => rfl)
    (by decide)

end Clients

end MarketplacePipeline.Redis
