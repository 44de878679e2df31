import MarketplacePipeline.Http.HttpClient
import MarketplacePipeline.Python.Number

/-!
# The quota of the proxies

`checkQuotaAvailable` is the pre-flight check of `ProxyMarketQuotaChecker`: it reads the packages of
a proxy.market account, and its balance, from the JSON answers of two endpoints.
-/

namespace MarketplacePipeline

/-- `for item in value`. -/
def Json.iter : Json → Except PyError (List Json)
  | .list items => .ok items
  | .dict fields => .ok (fields.map fun field => .str field.1)
  | .str s => .ok (s.map fun c => .str [c])
  | value => .error ⟨.exception, "'".toList ++ value.typeName ++ "' object is not iterable".toList⟩

/-- A package of proxy traffic. -/
structure ProxyPackageQuota where
  packageId : ℤ
  name : Str
  totalBytes : ℤ
  usedBytes : ℤ
  isActive : Bool
  deriving DecidableEq

def ProxyPackageQuota.remainingBytes (package : ProxyPackageQuota) : ℤ :=
  max 0 (package.totalBytes - package.usedBytes)

/-- `format_bytes(num_bytes)`. -/
def formatBytes (numBytes : ℤ) : Except PyError Str :=
  if 1073741824 ≤ numBytes then
    (trueDiv numBytes 1073741824).map fun x => x.formatFixed 2 ++ " GB".toList
  else if 1048576 ≤ numBytes then
    (trueDiv numBytes 1048576).map fun x => x.formatFixed 1 ++ " MB".toList
  else if 1024 ≤ numBytes then
    (trueDiv numBytes 1024).map fun x => x.formatFixed 0 ++ " KB".toList
  else .ok ((toString numBytes).toList ++ " B".toList)

/-! ### The endpoints -/

/-- `except httpx.HTTPError` catches it. -/
def isHttpError (exc : PyError) : Bool := exc.kind = .transport ∨ exc.kind = .httpStatus

/-- What a GET comes back with: `httpx` raises an `httpx.HTTPError`, and the body is JSON or
`response.json()` raises, which is no `httpx.HTTPError`. -/
structure QuotaAnswer where
  answer : HttpAnswer (Except PyError Json)
  raised : ∀ exc, answer = .raised exc → isHttpError exc = true
  unread : ∀ status exc message, answer = .response status (.error exc) message →
    exc.kind = .value ∨ exc.kind = .exception

/-- `response.raise_for_status()`. -/
def raiseForStatus {β : Type} : HttpAnswer β → Except PyError β
  | .response status body message =>
    if 200 ≤ status ∧ status ≤ 299 then .ok body else .error ⟨.httpStatus, message⟩
  | .raised exc => .error exc

/-- The settings of a checker, and the `get(url, params=params)` of its client. -/
structure ProxyMarketQuotaChecker where
  apiKey : Str
  minRemainingBytes : ℤ := 1048576
  minBalance : PyFloat := .ofRat 0
  get : (url : Str) → (params : List (Str × ℕ)) → QuotaAnswer

namespace ProxyMarketQuotaChecker

variable (text : JsonText) (checker : ProxyMarketQuotaChecker)

def apiBase : Str := "https://api.dashboard.proxy.market".toList

def dashboardUrl : Str := "https://proxy.market".toList

def packagesPageSize : ℕ := 50

def packagesUrl : Str := apiBase ++ "/dev-api/v2/packages/".toList ++ Str.strip checker.apiKey

def balanceUrl : Str := apiBase ++ "/dev-api/balance/".toList ++ Str.strip checker.apiKey

/-- `value or fallback`. -/
def orElse (value fallback : Json) : Json := if value.truthy then value else fallback

/-- `int(item.get(key) or 0)`. -/
def intField (key : String) (item : Json) : Except PyError ℤ := do
  text.toInt (orElse (← item.get key.toList .null) (.int 0))

/-- The package of an item of the list. -/
def packageOf (item : Json) : Except PyError ProxyPackageQuota := do
  let total ← intField text "total" item
  let used ← intField text "used" item
  let packageId ← intField text "id" item
  let name ← item.get "name".toList .null
  let isActive ← item.get "is_active".toList (.bool true)
  return {
    packageId := packageId
    name := text.str (orElse name (.str "package".toList))
    totalBytes := total
    usedBytes := used
    isActive := isActive.truthy }

/-- `_fetch_packages()`. -/
def fetchPackages : Except PyError (List ProxyPackageQuota) := do
  let body ← raiseForStatus (checker.get checker.packagesUrl
    [("page".toList, 1), ("perPage".toList, packagesPageSize)]).answer
  let payload ← body
  let items ← (← payload.get "data".toList (.list [])).iter
  items.mapM (packageOf text)

/-- `_fetch_balance()`. -/
def fetchBalance : Except PyError (Option PyFloat) :=
  match raiseForStatus (checker.get checker.balanceUrl []).answer with
  | .error exc => if isHttpError exc then .ok none else .error exc
  | .ok body => do
    let payload ← body
    match text.toFloat (← payload.get "balance".toList (.int 0)) with
    | .ok balance => .ok (some balance)
    | .error (.typeError _) => .ok none
    | .error (.valueError _) => .ok none
    | .error (.overflowError text) => .error ⟨.exception, text⟩

/-- `ProxyQuotaExhaustedError(text)`, which ends with where to top up. -/
def exhausted (text : Str) : PyError :=
  ⟨.proxyQuotaExhausted, text ++ ". Top up at ".toList ++ dashboardUrl⟩

/-- What is said of a package that is used up. -/
def describe (package : ProxyPackageQuota) : Except PyError Str := do
  let used ← formatBytes package.usedBytes
  let total ← formatBytes package.totalBytes
  return "'".toList ++ package.name ++ "' used ".toList ++ used ++ "/".toList ++ total

/-- The end of the check, for active packages that are not all used up. -/
def checkBalance (active : List ProxyPackageQuota) : Option PyFloat → Except PyError Unit
  | none => .ok ()
  | some balance =>
    if balance.le checker.minBalance ∧
        (active.map fun package => package.remainingBytes).sum < checker.minRemainingBytes then
      .error (exhausted ("PROXY_MARKET balance is ".toList ++ balance.formatFixed 2 ++
        " and prepaid traffic is depleted".toList))
    else .ok ()

/-- The check of the packages, which fetches the balance only at the end. -/
def checkPackages (packages : List ProxyPackageQuota) (balance : Except PyError (Option PyFloat)) :
    Except PyError Unit :=
  let active := packages.filter fun package => package.isActive
  let depleted := active.filter fun package =>
    package.remainingBytes < checker.minRemainingBytes
  if active.isEmpty then .error (exhausted "PROXY_MARKET: no active traffic packages".toList)
  else if depleted.length = active.length then do
    let details ← active.mapM describe
    throw (exhausted ("PROXY_MARKET traffic exhausted (".toList ++
      List.intercalate "; ".toList details ++ ")".toList))
  else do checker.checkBalance active (← balance)

/-- `check_quota_available()`. -/
def checkQuotaAvailable : Except PyError Unit :=
  match fetchPackages text checker with
  | .error exc => if isHttpError exc then .ok () else .error exc
  | .ok packages => checker.checkPackages packages (fetchBalance text checker)

end ProxyMarketQuotaChecker

end MarketplacePipeline
