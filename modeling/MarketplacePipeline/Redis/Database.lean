import MarketplacePipeline.Api.RateLimit
import MarketplacePipeline.Python.JsonDumps
import MarketplacePipeline.Python.Number

/-!
# A Redis database

A database maps keys to values of several types, each with a time when it expires.  A command finds
the value that is `live` when it is executed, and raises if this has another type than the command
is for; a key whose time is over is deleted when a command finds it.
-/

namespace MarketplacePipeline.Redis

/-! ### Exceptions of the client -/

def wrongType : PyError :=
  ⟨.exception, "WRONGTYPE Operation against a key holding the wrong kind of value".toList⟩

def notInteger : PyError := ⟨.exception, "value is not an integer or out of range".toList⟩

def wouldOverflow : PyError := ⟨.exception, "increment or decrement would overflow".toList⟩

/-! ### Keys and values -/

/-- The value of a key. -/
inductive Value
  | string (text : Str)
  /-- Members with their scores. -/
  | sortedSet (entries : Finset (Str × ℚ))
  /-- A type that no command below is for. -/
  | other

/-- A value, and when its key expires. -/
structure Entry where
  value : Value
  expiresAt : Option ℚ := none

/-- The keys that exist, or have expired and not been deleted yet. -/
abbrev Database := Str → Option Entry

/-- Whether the time of a key is over. -/
def Entry.expired (e : Entry) (time : ℚ) : Bool := e.expiresAt.any fun t => decide (t < time)

namespace Database

variable (time : ℚ) (key : Str) (db : Database)

/-- The value of a key at `time`. -/
def live : Option Value := ((db key).filter fun e => !e.expired time).map Entry.value

/-- A key whose time is over is deleted. -/
def expireIfNeeded : Database :=
  if (db key).any fun e => e.expired time then Function.update db key none else db

/-- The value of a key changes, and not when it expires. -/
def replace (value : Value) : Database :=
  Function.update db key (some ⟨value, (db key).bind Entry.expiresAt⟩)

/-- The members of a sorted set, none if it does not exist. -/
def members : Except PyError (Finset (Str × ℚ)) :=
  match (db key).map Entry.value with
  | none => .ok ∅
  | some (.sortedSet entries) => .ok entries
  | some _ => .error wrongType

/-- A sorted set without members does not exist. -/
def store (entries : Finset (Str × ℚ)) : Database :=
  if entries = ∅ then Function.update db key none else db.replace key (.sortedSet entries)

end Database

/-! ### Commands on texts -/

section Commands

open Database JsonDumps

variable (time : ℚ) (key : Str)

/-- `GET`. -/
def get (db : Database) : Except PyError (Option Str) × Database :=
  let db := db.expireIfNeeded time key
  match (db key).map Entry.value with
  | none => (.ok none, db)
  | some (.string text) => (.ok (some text), db)
  | some _ => (.error wrongType, db)

/-- `SET`. -/
def set (text : Str) (db : Database) : Database :=
  Function.update db key (some ⟨.string text, none⟩)

/-- `SET` with `NX` and `EX`. -/
def setNxEx (text : Str) (seconds : ℕ) (db : Database) : Bool × Database :=
  let db := db.expireIfNeeded time key
  match db key with
  | none => (true, Function.update db key (some ⟨.string text, some (time + seconds)⟩))
  | some _ => (false, db)

/-- The largest integer of Redis. -/
def maxInteger : ℤ := 2 ^ 63 - 1

/-- The integer that a text is the numeral of, if Redis has it. -/
def readInteger (text : Str) : Option ℤ :=
  ((Number.readInt text).map fun (negative, digits) =>
    if negative then -(Number.ofDigits digits : ℤ) else Number.ofDigits digits).filter fun n =>
      intText n = text && decide (-maxInteger - 1 ≤ n) && decide (n ≤ maxInteger)

/-- `INCR`. -/
def incr (db : Database) : Except PyError ℤ × Database :=
  let db := db.expireIfNeeded time key
  match (db key).map Entry.value with
  | none => (.ok 1, db.replace key (.string (intText 1)))
  | some (.string text) =>
    match readInteger text with
    | none => (.error notInteger, db)
    | some n =>
      if n = maxInteger then (.error wouldOverflow, db)
      else (.ok (n + 1), db.replace key (.string (intText (n + 1))))
  | some _ => (.error wrongType, db)

/-! ### Commands on sorted sets -/

/-- A command that changes a sorted set.  How many members it has added or removed is left out. -/
def onSortedSet (change : Finset (Str × ℚ) → Finset (Str × ℚ)) (db : Database) :
    Except PyError Unit × Database :=
  let db := db.expireIfNeeded time key
  match db.members key with
  | .error exc => (.error exc, db)
  | .ok entries => (.ok (), db.store key (change entries))

/-- `ZREMRANGEBYSCORE`. -/
def zremrangebyscore (min max : ℚ) : Database → Except PyError Unit × Database :=
  onSortedSet time key fun entries => SortedSet.zremrangebyscore entries min max

/-- `ZADD` of one member. -/
def zadd (member : Str) (score : ℚ) : Database → Except PyError Unit × Database :=
  onSortedSet time key fun entries => SortedSet.zadd entries member score

/-- `ZREM` of one member. -/
def zrem (member : Str) : Database → Except PyError Unit × Database :=
  onSortedSet time key fun entries => SortedSet.zrem entries member

/-- `ZCARD`. -/
def zcard (db : Database) : Except PyError ℕ × Database :=
  let db := db.expireIfNeeded time key
  ((db.members key).map Finset.card, db)

/-- `EXPIRE`, of a key of any type. -/
def expire (seconds : ℕ) (db : Database) : Bool × Database :=
  let db := db.expireIfNeeded time key
  match db key with
  | none => (false, db)
  | some e => (true, Function.update db key (some { e with expiresAt := some (time + seconds) }))

end Commands

end MarketplacePipeline.Redis
