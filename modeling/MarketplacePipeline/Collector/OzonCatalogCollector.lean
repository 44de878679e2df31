import MarketplacePipeline.Domain.Product
import MarketplacePipeline.Python.Error
import Mathlib.Data.Finset.Insert

/-!
# `OzonCatalogCollector.collect`

The collector asks the marketplace for page 1, 2, 3, ... until it has `target_count` products with
distinct ids, a page is empty, or a page cannot be fetched.  What `_fetch_page` gives for each page
number is a parameter, a `FetchOutcome`.

Nothing bounds the number of pages, so `collect` takes the number of page fetches it may make as
fuel and returns `none` when it would need more; `Terminates` says that some number is enough.
-/

namespace MarketplacePipeline.OzonCatalogCollector

/-- What one call of `_fetch_page` does. -/
inductive FetchOutcome
  /-- It returns products, already cut to `ozon_page_size`. -/
  | batch (products : List Product)
  /-- It raises `ProxyQuotaExhaustedError`. -/
  | quotaExhausted (text : Str)
  /-- It raises another `Exception`. -/
  | failed (text : Str)
  deriving DecidableEq

/-- How the loop of `collect` ends: the local variables after it, or a raised exception. -/
inductive LoopExit
  | finished (products : List Product) (degraded : Bool) (errorMessage : Option Str)
  | raised (exc : PyError)

/-- A call of `collect` that ended: its value or exception, the page numbers it asked for, and
whether it closed `ozon_http` (which the `finally` block does whenever there is one). -/
structure Collection where
  outcome : Except PyError CollectionResult
  requested : List Nat
  ozonHttpClosed : Bool

/-- `for product in batch: ...`, which leaves the batch as soon as the target is reached. -/
def addBatch (target : Int) :
    List Product → List Product → Finset Str → List Product × Finset Str
  | [], products, seenIds => (products, seenIds)
  | product :: batch, products, seenIds =>
    if product.id ∈ seenIds then
      addBatch target batch products seenIds
    else if target ≤ (products ++ [product]).length then
      -- `break`: the rest of the batch is dropped
      (products ++ [product], insert product.id seenIds)
    else
      addBatch target batch (products ++ [product]) (insert product.id seenIds)

/-- `while len(products) < target_count: ...`, with at most `fuel` page fetches. -/
def collectLoop (fetchPage : Nat → FetchOutcome) (target : Int) (fuel page : Nat)
    (products : List Product) (seenIds : Finset Str) (requested : List Nat) :
    Option (LoopExit × List Nat) :=
  if (products.length : Int) < target then
    match fuel with
    | 0 => none
    | fuel + 1 =>
      match fetchPage page with
      -- `except ProxyQuotaExhaustedError: raise`
      | .quotaExhausted text =>
        some (.raised ⟨.proxyQuotaExhausted, text⟩, requested ++ [page])
      -- any other exception degrades the result and ends the loop
      | .failed text => some (.finished products true (some text), requested ++ [page])
      | .batch [] => some (.finished products false none, requested ++ [page])
      | .batch batch =>
        let (products, seenIds) := addBatch target batch products seenIds
        collectLoop fetchPage target fuel (page + 1) products seenIds (requested ++ [page])
  else
    some (.finished products false none, requested)

/-- The `CollectionResult` that `collect` builds from its local variables after the loop. -/
def buildResult (target : Int) (products : List Product) (degraded : Bool)
    (errorMessage : Option Str) : CollectionResult where
  products := sliceTo products target
  targetCount := target
  collectedCount := (sliceTo products target).length
  exhausted := decide ((products.length : Int) < target) && !degraded
  degraded := degraded
  errorMessage := errorMessage

/-- `collect(target_count)` with at most `fuel` page fetches; `ozonHttp` says whether the collector
owns an `OzonHttpClient`. -/
def collect (fetchPage : Nat → FetchOutcome) (ozonHttp : Bool) (target : Int) (fuel : Nat) :
    Option Collection :=
  match collectLoop fetchPage target fuel 1 [] ∅ [] with
  | none => none
  | some (.raised exc, requested) => some ⟨.error exc, requested, ozonHttp⟩
  | some (.finished products degraded errorMessage, requested) =>
    some ⟨.ok (buildResult target products degraded errorMessage), requested, ozonHttp⟩

/-- `collect(target_count)` ends after finitely many page fetches. -/
def Terminates (fetchPage : Nat → FetchOutcome) (ozonHttp : Bool) (target : Int) : Prop :=
  ∃ fuel, (collect fetchPage ozonHttp target fuel).isSome

end MarketplacePipeline.OzonCatalogCollector
