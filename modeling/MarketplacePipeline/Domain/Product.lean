import MarketplacePipeline.Python.Text
import Mathlib.Data.Rat.Defs

/-!
# Products and the result of a collection

`Product` and `EnrichedProduct` are the entities of the catalog, `CollectionResult` what a
collector returns.
-/

namespace MarketplacePipeline

/-- An instant (a `datetime` in UTC), in microseconds from the start of the year 1 on. -/
abbrev Timestamp := Int

/-- `datetime(1970, 1, 1, tzinfo=UTC)`. -/
def unixEpoch : Timestamp := 719162 * 86400 * 1000000

/-- `int(value.timestamp())`.  Python divides to a `float`, which can round the last microsecond of
a second up from the year 2514 on. -/
def unixSeconds (value : Timestamp) : Int := (value - unixEpoch).tdiv 1000000

/-- Catalog item aggregate root before segmentation. -/
structure Product where
  id : Str
  name : Str
  price : ℚ
  currency : Str := "RUB".toList
  url : Str
  category : Str
  collectedAt : Timestamp
  description : Str := []
  deriving DecidableEq

/-- The consumer price segments. -/
inductive PriceSegment
  | economy
  | standard
  | premium
  deriving DecidableEq, Repr

/-- Product enriched with consumer price segment. -/
structure EnrichedProduct extends Product where
  segment : PriceSegment
  deriving DecidableEq

/-- Outcome of catalog collection (success, partial, or degraded). -/
structure CollectionResult where
  products : List Product
  targetCount : Int
  collectedCount : Nat
  exhausted : Bool
  degraded : Bool := false
  errorMessage : Option Str := none
  deriving DecidableEq

end MarketplacePipeline
