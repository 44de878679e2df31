import MarketplacePipeline.Http.OzonHttpClient

/-!
# What the client logs

The records that an attempt of `OzonHttpClient` gives to the logger: `logger.debug` for a warm-up
that was refused, `logger.warning` for an attempt that failed.  Those that name the proxy name it by
`maskProxy`.  A record is its level and its text, with the arguments filled in.
-/

namespace MarketplacePipeline

inductive LogLevel
  | debug
  | warning
  deriving DecidableEq

structure LogRecord where
  level : LogLevel
  message : Str
  deriving DecidableEq

/-- `_mask_proxy(proxy)`. -/
def maskProxy : Option Str → Str
  | none | some [] => "direct".toList
  | some proxy => if '@' ∈ proxy then (Str.split '@' 1 proxy).getLastD [] else proxy

/-- `f"{n}"`. -/
def decimal (n : ℕ) : Str := (toString n).toList

namespace OzonHttpClient

variable (cfg : Config)

/-- What `_fetch_once` logs of the warm-up, where `warmStatus` is the status of its response. -/
def warmUpLog (proxy : Option Str) (outcome : AttemptOutcome) (warmStatus : ℕ) (s : State) :
    List LogRecord :=
  if cfg.warmupSession ∧ proxy ∉ s.warmedProxies then
    match outcome.errorAt .warmup with
    | some _ => []
    | none =>
      if 400 ≤ warmStatus then
        [⟨.debug, "Ozon warmup HTTP ".toList ++ decimal warmStatus ++ " proxy=".toList ++
          maskProxy proxy⟩]
      else []
  else []

/-- What `_fetch_once` logs. -/
def fetchLog (proxy : Option Str) (outcome : AttemptOutcome) (warmStatus : ℕ) (s : State) :
    List LogRecord :=
  match clientForProxy proxy outcome s with
  | (.error _, _) => []
  | (.ok _, s) => warmUpLog cfg proxy outcome warmStatus s

/-- `f"{attempt + 1}/{attempts}"`. -/
def attemptOf (attempt : ℕ) : Str := decimal (attempt + 1) ++ "/".toList ++ decimal cfg.attempts

/-- What the body of the loop logs of the result of `_fetch_once`. -/
def endLog (attempt : ℕ) (proxy : Option Str) (result : Except FetchError Json) : List LogRecord :=
  match attemptEnd cfg result, result with
  | .failed _, .ok _ =>
    [⟨.warning, "Ozon empty payload attempt ".toList ++ attemptOf cfg attempt⟩]
  | .failed _, .error (.httpStatus status _) =>
    [⟨.warning, "Ozon HTTP ".toList ++ decimal status ++ " attempt ".toList ++
      attemptOf cfg attempt ++ " proxy=".toList ++ maskProxy proxy⟩]
  | .failed _, .error (.transport text) =>
    [⟨.warning, "Ozon transport error attempt ".toList ++ attemptOf cfg attempt ++ ": ".toList ++
      text⟩]
  | _, _ => []

/-- What the body of the loop logs. -/
def attemptLog (pagePath : Str) (attempt : ℕ) (a : Attempt) (warmStatus : ℕ) (s : State) :
    List LogRecord :=
  let (proxy, s) := nextProxy cfg s
  let (fingerprint, s) := fingerprintForProxy cfg proxy a s
  fetchLog cfg proxy a.outcome warmStatus s ++
    endLog cfg attempt proxy (fetchOnce cfg pagePath proxy fingerprint a.outcome s).1

end OzonHttpClient

end MarketplacePipeline
