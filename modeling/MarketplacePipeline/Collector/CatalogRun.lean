import MarketplacePipeline.Collector.OzonCatalogCollector
import MarketplacePipeline.Collector.WidgetStates
import MarketplacePipeline.Http.OzonHttpClient

/-!
# A collector and its client

`collectRun` is `OzonCatalogCollector.collect` of a collector with an `OzonHttpClient`: it fetches
every page with the calls and the retries of the client, parses the payload, and closes the client
when it is done.  What the network does to the attempts, what the clock shows after them, and the
libraries that the parser uses are the `Env`.
-/

namespace MarketplacePipeline

namespace OzonHttpClient

/-- The exception that leaves `get_composer_json`. -/
def ComposerError.toPyError : ComposerError → PyError
  | .proxyQuotaExhausted message => ⟨.proxyQuotaExhausted, message⟩
  | .antiBot statusCode detail =>
    ⟨.exception, "Ozon anti-bot block HTTP ".toList ++ (toString statusCode).toList ++
      ": ".toList ++ detail.take 200⟩
  | .uncaught exc => exc

end OzonHttpClient

namespace OzonCatalogCollector

open OzonHttpClient (ComposerError)

/-- The settings of the collector and of its client. -/
structure Settings extends OzonHttpClient.Config where
  ozonCategoryPath : Str
  ozonPageSize : ℤ := 36

/-- What a collector finds outside. -/
structure Env where
  network : ℕ → OzonHttpClient.Attempt
  /-- `datetime.now(tz=UTC)` after that many attempts. -/
  now : ℕ → Timestamp
  /-- `float(digits)`. -/
  float : Str → ℚ
  /-- `HttpUrl`. -/
  httpUrl : Str → Except PyError Str

/-- `_page_url(page)`. -/
def pageUrl (categoryPath : Str) (page : ℕ) : Str :=
  let base := categoryPath.rdropWhile (· = '/')
  if page ≤ 1 then base ++ "/".toList
  else base ++ "/?page=".toList ++ Nat.toDigits 10 page

/-- `_fetch_page(page)`. -/
def fetchPage (settings : Settings) (env : Env) (page : ℕ) (s : OzonHttpClient.State) :
    Except PyError (List Product) × OzonHttpClient.State :=
  match OzonHttpClient.getComposerJson settings.toConfig env.network
    (pageUrl settings.ozonCategoryPath page) s with
  | (.error exc, s) => (.error exc.toPyError, s)
  | (.ok payload, s) =>
    ((parseProducts env.float env.httpUrl payload (env.now s.tried.length)).map fun products =>
      sliceTo products settings.ozonPageSize, s)

section Loop

variable {σ : Type} (fetch : ℕ → σ → Except PyError (List Product) × σ)

/-- `while len(products) < target_count: ...`, with at most `fuel` page fetches. -/
def runLoop (target : ℤ) (fuel page : ℕ) (products : List Product) (seenIds : Finset Str)
    (requested : List ℕ) (s : σ) : Option ((LoopExit × List ℕ) × σ) :=
  if (products.length : ℤ) < target then
    match fuel with
    | 0 => none
    | fuel + 1 =>
      match fetch page s with
      | (.error exc, s) =>
        -- `except ProxyQuotaExhaustedError: raise`, and what `except Exception` does not catch
        if exc.kind = .proxyQuotaExhausted ∨ exc.isException = false then
          some ((.raised exc, requested ++ [page]), s)
        else some ((.finished products true (some exc.text), requested ++ [page]), s)
      | (.ok [], s) => some ((.finished products false none, requested ++ [page]), s)
      | (.ok batch, s) =>
        let (products, seenIds) := addBatch target batch products seenIds
        runLoop target fuel (page + 1) products seenIds (requested ++ [page]) s
  else some ((.finished products false none, requested), s)

end Loop

/-- `collect(target_count)` with at most `fuel` page fetches, and the client that it leaves. -/
def collectRun (settings : Settings) (env : Env) (target : ℤ) (fuel : ℕ)
    (s : OzonHttpClient.State) : Option (Collection × OzonHttpClient.State) :=
  match runLoop (fetchPage settings env) target fuel 1 [] ∅ [] s with
  | none => none
  | some ((exit, requested), s) =>
    let outcome := match exit with
      | .raised exc => .error exc
      | .finished products degraded errorMessage =>
        .ok (buildResult target products degraded errorMessage)
    -- the `finally` block
    some (⟨outcome, requested, true⟩, OzonHttpClient.close s)

end OzonCatalogCollector

end MarketplacePipeline
