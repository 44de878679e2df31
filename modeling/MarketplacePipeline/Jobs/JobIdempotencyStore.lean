import MarketplacePipeline.Python.Text
import Mathlib.Algebra.Order.Ring.Rat
import Mathlib.Data.PNat.Defs
import Mathlib.Logic.Function.Basic

/-!
# Job idempotency stores

`JobIdempotencyStorePort` is what a store of reservations offers: `get` and `reserve`, each atomic
and made at a reading `now` of the store's clock.  Its laws are stated with `holder s key t`, the
job id that the store, left alone in state `s`, would return for `key` at time `t`.  The in-process
store and the Redis store are its two instances.
-/

namespace MarketplacePipeline

/-- A store that maps idempotency keys to job ids for a limited time. -/
structure JobIdempotencyStorePort (σ : Type) where
  /-- Return the job id for a key when present and not expired. -/
  get : (now : ℚ) → (key : Str) → σ → Option Str × σ
  /-- Atomically reserve a key for a job id; `false` if the key is already taken. -/
  reserve : (now : ℚ) → (key jobId : Str) → σ → Bool × σ
  /-- How long a reservation lasts. -/
  ttl : ℚ
  holder : σ → Str → ℚ → Option Str
  get_fst : ∀ now key s, (get now key s).1 = holder s key now
  holder_get : ∀ {now key s k t}, now ≤ t → holder (get now key s).2 k t = holder s k t
  reserve_fst : ∀ now key jobId s,
    (reserve now key jobId s).1 = (holder s key now).isNone
  holder_reserve : ∀ {now key jobId s k t}, now ≤ t →
    holder (reserve now key jobId s).2 k t =
      if k = key ∧ holder s key now = none then
        if t ≤ now + ttl then some jobId else none
      else holder s k t
  holder_expired : ∀ {s k now t}, holder s k now = none → now ≤ t → holder s k t = none

/-- A job id and the time it expires for each key. -/
abbrev ReservationEntries := Str → Option (Str × ℚ)

/-- The job id of an entry that has not expired. -/
def ReservationEntries.live (entries : ReservationEntries) (key : Str) (now : ℚ) : Option Str :=
  match entries key with
  | none => none
  | some (jobId, expiresAt) => if expiresAt < now then none else some jobId

namespace ReservationEntries

variable {entries : ReservationEntries} {key : Str} {now t : ℚ}

theorem live_update (entries : ReservationEntries) (key : Str) (e : Option (Str × ℚ)) (k : Str)
    (t : ℚ) : live (Function.update entries key e) k t =
      if k = key then
        match e with
        | none => none
        | some (jobId, expiresAt) => if expiresAt < t then none else some jobId
      else live entries k t := by
  unfold live
  by_cases hk : k = key
  · subst hk
    rw [Function.update_self, if_pos rfl]
  · rw [Function.update_of_ne hk, if_neg hk]

/-- What has expired stays expired. -/
theorem live_expired (h : live entries key now = none) (ht : now ≤ t) :
    live entries key t = none := by
  unfold live at h ⊢
  split at h
  · rfl
  · rename_i jobId expiresAt _
    have hlt : expiresAt < now := by
      by_contra hnot
      rw [if_neg hnot] at h
      cases h
    exact if_pos (hlt.trans_le ht)

/-- A fresh entry lives until it expires. -/
theorem live_update_some (entries : ReservationEntries) (key jobId k : Str) (expiresAt t : ℚ) :
    live (Function.update entries key (some (jobId, expiresAt))) k t =
      if k = key then (if t ≤ expiresAt then some jobId else none) else live entries k t := by
  rw [live_update]
  simp only [← not_lt, ite_not]

end ReservationEntries

/-! ### The in-process store -/

namespace MemoryJobIdempotencyStore

open ReservationEntries

/-- `_get_unlocked`. -/
def get (now : ℚ) (key : Str) (entries : ReservationEntries) :
    Option Str × ReservationEntries :=
  match entries key with
  | none => (none, entries)
  | some (jobId, expiresAt) =>
    if expiresAt < now then (none, Function.update entries key none) else (some jobId, entries)

/-- `_purge_expired_unlocked`. -/
def purgeExpired (now : ℚ) (entries : ReservationEntries) : ReservationEntries := fun key =>
  match entries key with
  | none => none
  | some (jobId, expiresAt) => if expiresAt < now then none else some (jobId, expiresAt)

/-- `reserve`. -/
def reserve (ttlSeconds : ℤ) (now : ℚ) (key jobId : Str) (entries : ReservationEntries) :
    Bool × ReservationEntries :=
  let entries := purgeExpired now entries
  if (entries key).isSome then (false, entries)
  else (true, Function.update entries key (some (jobId, now + ttlSeconds)))

variable {entries : ReservationEntries} {key k : Str} {now t : ℚ}

theorem get_fst : (get now key entries).1 = live entries key now := by
  unfold get live
  split
  · rfl
  · split_ifs <;> rfl

/-- Dropping an expired entry is not seen later. -/
theorem live_get (ht : now ≤ t) : live (get now key entries).2 k t = live entries k t := by
  by_cases hk : k = key
  · subst hk
    cases hnow : live entries k now with
    | none =>
      have hgone : live (get now k entries).2 k now = none := by
        unfold get
        split
        · exact hnow
        · split_ifs
          · rw [live_update, if_pos rfl]
          · exact hnow
      rw [live_expired hnow ht, live_expired hgone ht]
    | some jobId =>
      have hsame : (get now k entries).2 = entries := by
        unfold get
        unfold live at hnow
        split at hnow
        · cases hnow
        · split_ifs at hnow with h
          rw [if_neg h]
      rw [hsame]
  · unfold get
    split
    · rfl
    · split_ifs
      · rw [live_update, if_neg hk]
      · rfl

theorem purgeExpired_isSome (now : ℚ) (entries : ReservationEntries) (key : Str) :
    (purgeExpired now entries key).isSome = (live entries key now).isSome := by
  unfold purgeExpired live
  split
  · rfl
  · split_ifs <;> rfl

theorem live_purgeExpired (ht : now ≤ t) :
    live (purgeExpired now entries) k t = live entries k t := by
  unfold live purgeExpired
  cases entries k with
  | none => rfl
  | some e =>
    by_cases h : e.2 < now
    · simp [h, h.trans_le ht]
    · simp [h]

theorem reserve_fst (ttlSeconds : ℤ) (jobId : Str) :
    (reserve ttlSeconds now key jobId entries).1 = (live entries key now).isNone := by
  unfold reserve
  simp only [purgeExpired_isSome]
  cases live entries key now <;> rfl

theorem live_reserve (ttlSeconds : ℤ) (jobId : Str) (ht : now ≤ t) :
    live (reserve ttlSeconds now key jobId entries).2 k t =
      if k = key ∧ live entries key now = none then
        if t ≤ now + ttlSeconds then some jobId else none
      else live entries k t := by
  unfold reserve
  simp only [purgeExpired_isSome]
  cases hnow : live entries key now with
  | none =>
    rw [if_neg (by simp), live_update_some, live_purgeExpired ht]
    simp
  | some holder => simp [live_purgeExpired ht]

end MemoryJobIdempotencyStore

/-- The store of a single API process. -/
def memoryJobIdempotencyStore (ttlSeconds : ℤ) : JobIdempotencyStorePort ReservationEntries where
  get := MemoryJobIdempotencyStore.get
  reserve := MemoryJobIdempotencyStore.reserve ttlSeconds
  ttl := ttlSeconds
  holder := ReservationEntries.live
  get_fst _ _ _ := MemoryJobIdempotencyStore.get_fst
  holder_get ht := MemoryJobIdempotencyStore.live_get ht
  reserve_fst _ _ jobId _ := MemoryJobIdempotencyStore.reserve_fst ttlSeconds jobId
  holder_reserve ht := MemoryJobIdempotencyStore.live_reserve ttlSeconds _ ht
  holder_expired h ht := ReservationEntries.live_expired h ht

/-! ### The Redis store -/

namespace RedisJobIdempotencyStore

open ReservationEntries

/-- `_KEY_PREFIX`. -/
def keyPrefix : Str := "job:idempotency:".toList

/-- `GET`: an expired key does not exist. -/
def get (now : ℚ) (key : Str) (db : ReservationEntries) : Option Str × ReservationEntries :=
  (live db (keyPrefix ++ key) now, db)

/-- `SET key job_id NX EX ttl_seconds`. -/
def reserve (ttlSeconds : ℕ+) (now : ℚ) (key jobId : Str) (db : ReservationEntries) :
    Bool × ReservationEntries :=
  match live db (keyPrefix ++ key) now with
  | some _ => (false, db)
  | none => (true, Function.update db (keyPrefix ++ key) (some (jobId, now + (ttlSeconds : ℕ))))

end RedisJobIdempotencyStore

open RedisJobIdempotencyStore in
/-- The store that several API replicas share; `EX` takes a positive number of seconds. -/
def redisJobIdempotencyStore (ttlSeconds : ℕ+) : JobIdempotencyStorePort ReservationEntries where
  get := RedisJobIdempotencyStore.get
  reserve := RedisJobIdempotencyStore.reserve ttlSeconds
  ttl := (ttlSeconds : ℕ)
  holder db key now := db.live (keyPrefix ++ key) now
  get_fst _ _ _ := rfl
  holder_get _ := rfl
  reserve_fst now key jobId db := by
    unfold RedisJobIdempotencyStore.reserve
    cases db.live (keyPrefix ++ key) now <;> rfl
  holder_reserve {now key jobId db k t} _ := by
    unfold RedisJobIdempotencyStore.reserve
    cases hnow : db.live (keyPrefix ++ key) now with
    | none => simp [ReservationEntries.live_update_some]
    | some holder => simp
  holder_expired h ht := ReservationEntries.live_expired h ht

end MarketplacePipeline
