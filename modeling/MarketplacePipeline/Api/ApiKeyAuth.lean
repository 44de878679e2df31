import MarketplacePipeline.Http.UrlSplit

/-!
# The API key

`ApiKeyAuthMiddleware.dispatch` lets a request through without a key if its URL has a public path.
This is the path of `<scheme>://<Host header><routed path>`, whereas the router looks at the routed
path alone.
-/

namespace MarketplacePipeline

inductive UrlScheme
  | http
  | https

def UrlScheme.text : UrlScheme → Str
  | .http => "http".toList
  | .https => "https".toList

/-- A request.  The names of the headers are in lower case, and their values are Latin-1. -/
structure ApiRequest where
  method : Str
  scheme : UrlScheme
  /-- The `Host` header. -/
  host : Str
  /-- The routed path, `scope["path"]`. -/
  path : Str
  headers : List (Str × Str) := []

namespace ApiRequest

/-- `request.headers.get(name, "")`. -/
def header (req : ApiRequest) (name : Str) : Str :=
  match req.headers.find? (·.1 = name) with
  | none => []
  | some (_, value) => value

/-- `request.url.path`. -/
def urlPath (accepts : Str → Bool) (req : ApiRequest) : Except PyError Str :=
  UrlSplit.path accepts (req.scheme.text ++ "://".toList ++ req.host ++ req.path)

end ApiRequest

/-! ### The middleware -/

/-- `PUBLIC_PATH_PREFIXES`. -/
def publicPathPrefixes : List Str :=
  ["/health".toList, "/ready".toList, "/metrics".toList, "/docs".toList, "/redoc".toList,
    "/openapi.json".toList]

/-- `is_public_path`. -/
def isPublicPath (path : Str) : Bool :=
  publicPathPrefixes.any fun pre => path == pre || (pre ++ ['/']).isPrefixOf path

/-- `secrets.compare_digest`, which compares ASCII texts only. -/
def compareDigest (a b : Str) : Except PyError Bool :=
  if a.all (fun c => c.toNat < 128) && b.all (fun c => c.toNat < 128) then .ok (a == b)
  else .error ⟨.exception, "comparing strings with non-ASCII characters is not supported".toList⟩

namespace ApiKeyAuthMiddleware

/-- The credential that a request presents; empty if it presents none.  `lower` changes no other
Latin-1 character to one of `bearer`. -/
def provided (req : ApiRequest) : Str :=
  let provided := req.header "x-api-key".toList
  if provided ≠ [] then provided
  else
    let auth := req.header "authorization".toList
    if "bearer ".toList.isPrefixOf (auth.map Char.toLower) then Str.strip (auth.drop 7) else []

inductive Result
  | callNext
  /-- Status 401. -/
  | unauthorized (detail : Str)
  deriving DecidableEq

/-- `dispatch`. -/
def dispatch (accepts : Str → Bool) (apiKey : Str) (req : ApiRequest) : Except PyError Result := do
  if apiKey = [] then return .callNext
  if isPublicPath (← req.urlPath accepts) then return .callNext
  if provided req = [] then return .unauthorized "Invalid or missing API key".toList
  if !(← compareDigest (provided req) apiKey) then
    return .unauthorized "Invalid or missing API key".toList
  return .callNext

end ApiKeyAuthMiddleware

/-! ### The routes under `/api/v1` -/

/-- The handlers of `routes/jobs.py`. -/
inductive JobHandler
  | createJob
  | getJob (jobId : Str)
  | listJobs
  deriving DecidableEq

/-- The path of the collection. -/
def jobsPath : Str := "/api/v1/pipeline/jobs".toList

/-- The handler under `/api/v1` that a request is routed to.  The pattern of a route ends with `$`,
which also matches before a line break at the end; `job_id` is `[^/]+`. -/
def jobHandler (req : ApiRequest) : Option JobHandler :=
  if req.path = jobsPath ∨ req.path = jobsPath ++ ['\n'] then
    if req.method = "POST".toList then some .createJob
    else if req.method = "GET".toList then some .listJobs
    else none
  else if (jobsPath ++ ['/']).isPrefixOf req.path then
    let jobId := req.path.drop (jobsPath.length + 1)
    if jobId ≠ [] ∧ '/' ∉ jobId ∧ req.method = "GET".toList then some (.getJob jobId) else none
  else none

end MarketplacePipeline
