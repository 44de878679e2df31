import MarketplacePipeline.Domain.CrmTask
import Mathlib.Logic.Function.Basic

/-!
# Idempotency stores of the CRM gateway

`IdempotencyStorePort` is a store that behaves as a reliable map from keys to records; `save` is
for stores that buffer their writes.  The Redis store is an instance.
-/

namespace MarketplacePipeline

/-- A store of idempotency records. -/
structure IdempotencyStorePort (σ : Type) where
  get : Str → σ → Option IdempotencyRecord
  put : Str → IdempotencyRecord → σ → σ
  save : σ → σ
  get_put : ∀ k key record s,
    get k (put key record s) = if k = key then some record else get k s
  get_save : ∀ k s, get k (save s) = get k s

namespace RedisIdempotencyStore

/-- `_KEY_PREFIX`. -/
def keyPrefix : Str := "crm:idempotency:".toList

/-- `get`: the record stored under the prefixed key. -/
def get (key : Str) (db : Str → Option IdempotencyRecord) : Option IdempotencyRecord :=
  db (keyPrefix ++ key)

/-- `put`: `SET` of the prefixed key. -/
def put (key : Str) (record : IdempotencyRecord) (db : Str → Option IdempotencyRecord) :
    Str → Option IdempotencyRecord :=
  Function.update db (keyPrefix ++ key) (some record)

/-- `save`: Redis writes are immediate. -/
def save (db : Str → Option IdempotencyRecord) : Str → Option IdempotencyRecord := db

end RedisIdempotencyStore

open RedisIdempotencyStore in
/-- The store of all nodes that share a Redis database. -/
def redisIdempotencyStore : IdempotencyStorePort (Str → Option IdempotencyRecord) where
  get := RedisIdempotencyStore.get
  put := RedisIdempotencyStore.put
  save := RedisIdempotencyStore.save
  get_put k key record db := by
    by_cases h : k = key
    · subst h
      simp [RedisIdempotencyStore.get, RedisIdempotencyStore.put]
    · simp [RedisIdempotencyStore.get, RedisIdempotencyStore.put, h]
  get_save _ _ := rfl

end MarketplacePipeline
