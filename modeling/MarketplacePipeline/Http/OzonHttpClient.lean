import MarketplacePipeline.Python.Json
import Mathlib.Algebra.Order.Ring.Rat
import Mathlib.Data.Finset.Erase
import Mathlib.Data.Finset.Insert
import Mathlib.Logic.Function.Basic

/-!
# The client of the Ozon composer API

`OzonHttpClient` sends its requests through one `httpx.Client` for each proxy, with a browser
fingerprint for each proxy.  `getComposerJson` makes attempts until one of them decides; what the
network does to them is a sequence of `Attempt`s, one for each call of `_fetch_once` in the lifetime
of the client.  Waiting has no effect but that it can raise.
-/

namespace MarketplacePipeline

/-- `is_proxy_quota_transport_error`, where `lower` is `str.lower`. -/
def isProxyQuotaTransportError (lower : Str → Str) (message : Str) : Bool :=
  let markers := ["traffic", "quota", "balance", "payment required", "no traffic", "out of traffic",
    "limit exceeded", "insufficient", "недостаточно", "трафик", "баланс"]
  markers.any fun marker => (Str.find marker.toList (lower message) 0).isSome

structure BrowserProfile where
  name : Str
  userAgent : Str
  secChUa : Option Str := none
  secChUaMobile : Option Str := none
  secChUaPlatform : Option Str := none
  deriving DecidableEq

structure SessionFingerprint where
  profile : BrowserProfile
  viewportWidth : ℕ
  viewportHeight : ℕ
  deriving DecidableEq

/-- `parse_proxy_list`. -/
def parseProxyList (raw : Str) : List Str :=
  if Str.strip raw = [] then []
  else
    (((raw.map fun c => if c = '\n' then ',' else c).splitOn ',').map Str.strip).filter (· ≠ [])

namespace OzonHttpClient

/-- The settings of a client. -/
structure Config where
  maxRetries : ℤ := 5
  /-- A finite `float`. -/
  baseDelay : ℚ := 1
  warmupSession : Bool := true
  rotateUserAgents : Bool := true
  proxyList : Str := []
  /-- `self._browser_profiles[0]`. -/
  firstProfile : BrowserProfile
  /-- `str.lower`. -/
  lower : Str → Str

namespace Config

variable (cfg : Config)

/-- `self._proxies`. -/
def proxies : List Str := parseProxyList cfg.proxyList

/-- The number of attempts of a call. -/
def attempts : ℕ := (max 1 cfg.maxRetries).toNat * max 1 cfg.proxies.length

/-- What the wait before an attempt raises: `2 ** (attempt - 1)` is an `int` that must fit a
`float`.  For a delay below -9223372036 seconds, `time.sleep` raises an `OverflowError` instead of
this `ValueError`; nothing catches either. -/
def waitError (attempt : ℕ) : Option PyError :=
  if attempt = 0 then none
  else if 1024 ≤ attempt - 1 then
    some ⟨.exception, "int too large to convert to float".toList⟩
  else if min 60 (cfg.baseDelay * 2 ^ (attempt - 1)) < 0 then
    some ⟨.value, "sleep length must be non-negative".toList⟩
  else none

end Config

/-! ### Attempts -/

/-- Where an attempt can fail: `httpx.Client(...)`, the warm-up, the composer request. -/
inductive Stage
  | client
  | warmup
  | composer
  deriving DecidableEq

/-- The stages up to a stage. -/
def Stage.upTo : Stage → List Stage
  | client => [client]
  | warmup => [client, warmup]
  | composer => [client, warmup, composer]

/-- What `_fetch_once` raises. -/
inductive FetchError
  /-- `httpx.HTTPStatusError`, with the status and the text of its response. -/
  | httpStatus (status : ℕ) (text : Str)
  /-- `httpx.TransportError`. -/
  | transport (text : Str)
  | other (exc : PyError)

/-- What the network does to an attempt.  An attempt that has no use for the stage at which an
exception would be raised meets it at its next stage. -/
inductive AttemptOutcome
  /-- The composer request is answered; `json` is what `response.json()` returns or raises. -/
  | answered (status : ℕ) (text : Str) (json : Except PyError Json)
  | transportError (text : Str) (stage : Stage)
  | otherError (exc : PyError) (stage : Stage)

/-- The exception that an attempt meets at a stage. -/
def AttemptOutcome.errorAt (stage : Stage) : AttemptOutcome → Option FetchError
  | .answered _ _ _ => none
  | .transportError text first => if first ∈ stage.upTo then some (.transport text) else none
  | .otherError exc first => if first ∈ stage.upTo then some (.other exc) else none

/-- An attempt: what `_pick_browser_profile` and `_pick_viewport` would pick, and the network. -/
structure Attempt where
  profile : BrowserProfile
  viewport : ℕ × ℕ
  outcome : AttemptOutcome

/-! ### The state -/

inductive RequestKind
  | warmup
  | composer (pagePath : Str)
  deriving DecidableEq

/-- A request that was sent: through which `httpx.Client`, and with the headers of which
fingerprint. -/
structure SentRequest where
  client : ℕ
  kind : RequestKind
  fingerprint : SessionFingerprint
  /-- A response came back. -/
  returned : Bool

/-- The attributes of the client.  An `httpx.Client` is a number; `nextClient`, `tried` (the proxy
of every attempt) and `sent` belong to the surroundings. -/
structure State where
  proxyIndex : ℕ := 0
  clients : Option Str → Option ℕ := fun _ => none
  warmedProxies : Finset (Option Str) := ∅
  fingerprints : Option Str → Option SessionFingerprint := fun _ => none
  nextClient : ℕ := 0
  tried : List (Option Str) := []
  sent : List SentRequest := []

variable (cfg : Config)

/-- `close()`. -/
def close (s : State) : State :=
  { s with clients := fun _ => none, warmedProxies := ∅, fingerprints := fun _ => none }

/-- `_next_proxy()`, for the next attempt. -/
def nextProxy (s : State) : Option Str × State :=
  if cfg.proxies = [] then (none, { s with tried := s.tried ++ [none] })
  else
    let proxy := cfg.proxies[s.proxyIndex % cfg.proxies.length]?
    (proxy, { s with proxyIndex := s.proxyIndex + 1, tried := s.tried ++ [proxy] })

/-- `_fingerprint_for_proxy(proxy)`. -/
def fingerprintForProxy (proxy : Option Str) (a : Attempt) (s : State) :
    SessionFingerprint × State :=
  match s.fingerprints proxy with
  | some fingerprint => (fingerprint, s)
  | none =>
    let profile := if cfg.rotateUserAgents then a.profile else cfg.firstProfile
    let viewport := if cfg.rotateUserAgents then a.viewport else (1920, 1080)
    let fingerprint : SessionFingerprint :=
      { profile := profile, viewportWidth := viewport.1, viewportHeight := viewport.2 }
    (fingerprint,
      { s with fingerprints := Function.update s.fingerprints proxy (some fingerprint) })

/-- `_client_for_proxy(proxy)`. -/
def clientForProxy (proxy : Option Str) (outcome : AttemptOutcome) (s : State) :
    Except FetchError ℕ × State :=
  match s.clients proxy with
  | some client => (.ok client, s)
  | none =>
    match outcome.errorAt .client with
    | some exc => (.error exc, s)
    | none =>
      (.ok s.nextClient,
        { s with
          clients := Function.update s.clients proxy (some s.nextClient)
          nextClient := s.nextClient + 1 })

/-- `_drop_client(proxy)`. -/
def dropClient (proxy : Option Str) (s : State) : State :=
  { s with
    clients := Function.update s.clients proxy none
    warmedProxies := s.warmedProxies.erase proxy
    fingerprints := Function.update s.fingerprints proxy none }

/-- A request is sent. -/
def send (request : SentRequest) (s : State) : State := { s with sent := s.sent ++ [request] }

/-- The warm-up of `_fetch_once`. -/
def warmUp (proxy : Option Str) (fingerprint : SessionFingerprint) (client : ℕ)
    (outcome : AttemptOutcome) (s : State) : Except FetchError Unit × State :=
  if cfg.warmupSession ∧ proxy ∉ s.warmedProxies then
    match outcome.errorAt .warmup with
    | some exc => (.error exc, send ⟨client, .warmup, fingerprint, false⟩ s)
    | none =>
      let s := send ⟨client, .warmup, fingerprint, true⟩ s
      (.ok (), { s with warmedProxies := insert proxy s.warmedProxies })
  else (.ok (), s)

/-- `response.raise_for_status()` and `response.json()`. -/
def checkResponse (status : ℕ) (text : Str) (json : Except PyError Json) : Except FetchError Json :=
  if 200 ≤ status ∧ status ≤ 299 then json.mapError .other else .error (.httpStatus status text)

/-- The composer request of `_fetch_once`. -/
def composerRequest (pagePath : Str) (fingerprint : SessionFingerprint) (client : ℕ)
    (outcome : AttemptOutcome) (s : State) : Except FetchError Json × State :=
  match outcome with
  | .answered status text json =>
    (checkResponse status text json, send ⟨client, .composer pagePath, fingerprint, true⟩ s)
  | .transportError text _ =>
    (.error (.transport text), send ⟨client, .composer pagePath, fingerprint, false⟩ s)
  | .otherError exc _ =>
    (.error (.other exc), send ⟨client, .composer pagePath, fingerprint, false⟩ s)

/-- `_fetch_once(page_path=..., proxy=..., fingerprint=...)`. -/
def fetchOnce (pagePath : Str) (proxy : Option Str) (fingerprint : SessionFingerprint)
    (outcome : AttemptOutcome) (s : State) : Except FetchError Json × State :=
  match clientForProxy proxy outcome s with
  | (.error exc, s) => (.error exc, s)
  | (.ok client, s) =>
    match warmUp cfg proxy fingerprint client outcome s with
    | (.error exc, s) => (.error exc, s)
    | (.ok (), s) => composerRequest pagePath fingerprint client outcome s

/-! ### Calls -/

/-- What `get_composer_json` raises. -/
inductive ComposerError
  | proxyQuotaExhausted (message : Str)
  /-- `OzonAntiBotError(status_code=..., detail=...)`. -/
  | antiBot (statusCode : ℕ) (detail : Str)
  /-- An exception that no handler is there for. -/
  | uncaught (exc : PyError)

/-- How an attempt ends. -/
inductive AttemptEnd
  | returned (payload : Json)
  | raised (exc : ComposerError)
  /-- The loop goes on. -/
  | failed (lastError : Str)

/-- What the body of the loop makes of `_fetch_once`, before `_drop_client`. -/
def attemptEnd (result : Except FetchError Json) : AttemptEnd :=
  match result with
  | .ok payload =>
    match payload.get "widgetStates".toList .null with
    | .error exc => .raised (.uncaught exc)
    | .ok widgetStates =>
      if widgetStates.truthy then .returned payload
      else .failed "empty widgetStates in composer response".toList
  | .error (.httpStatus status text) =>
    if status = 402 ∨ status = 407 then
      .raised (.proxyQuotaExhausted ("Proxy provider rejected request HTTP ".toList ++
        (toString status).toList ++ ". Check proxy.market traffic and balance.".toList))
    else .failed (text.take 300)
  | .error (.transport text) =>
    if isProxyQuotaTransportError cfg.lower text then
      .raised (.proxyQuotaExhausted
        ("Proxy provider traffic or balance exhausted. Details: ".toList ++ text.take 200))
    else .failed text
  | .error (.other exc) => .raised (.uncaught exc)

/-- The body of the loop. -/
def runAttempt (pagePath : Str) (a : Attempt) (s : State) : AttemptEnd × State :=
  let (proxy, s) := nextProxy cfg s
  let (fingerprint, s) := fingerprintForProxy cfg proxy a s
  let (result, s) := fetchOnce cfg pagePath proxy fingerprint a.outcome s
  match attemptEnd cfg result, result with
  | .failed lastError, .error _ => (.failed lastError, dropClient proxy s)
  | ended, _ => (ended, s)

/-- The loop from an attempt on, with at most `more` attempts. -/
def composerLoop (network : ℕ → Attempt) (pagePath : Str) :
    (more attempt : ℕ) → (lastError : Str) → State → Except ComposerError Json × State
  | 0, _, lastError, s => (.error (.antiBot 403 lastError), s)
  | more + 1, attempt, _, s =>
    match cfg.waitError attempt with
    | some exc => (.error (.uncaught exc), s)
    | none =>
      match runAttempt cfg pagePath (network s.tried.length) s with
      | (.returned payload, s) => (.ok payload, s)
      | (.raised exc, s) => (.error exc, s)
      | (.failed lastError, s) => composerLoop network pagePath more (attempt + 1) lastError s

/-- `get_composer_json(page_path=...)`. -/
def getComposerJson (network : ℕ → Attempt) (pagePath : Str) (s : State) :
    Except ComposerError Json × State :=
  composerLoop cfg network pagePath cfg.attempts 0 "unknown".toList s

end OzonHttpClient

end MarketplacePipeline
