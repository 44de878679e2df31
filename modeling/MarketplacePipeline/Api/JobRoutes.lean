import MarketplacePipeline.Algorithm.Checkpoint
import MarketplacePipeline.Jobs.ApiProcess
import MarketplacePipeline.Proxy.ProxyMarketQuotaChecker

/-!
# `POST /pipeline/jobs`

`create_job` checks that the credentials of the pipeline are configured and that the proxies have
traffic left, and then submits a job.  `admission` is what comes before the submission; behind it is
the `ApiProcess` of the jobs.
-/

namespace MarketplacePipeline

/-! ### Prerequisites -/

structure PipelinePrerequisites where
  mockLlm : Bool
  mockCrm : Bool
  openaiApiKey : Str
  amocrmSubdomain : Str
  amocrmAccessToken : Str

/-- `validate_pipeline_prerequisites(prerequisites)`, which raises a `PipelineConfigurationError`
with this text. -/
def validatePipelinePrerequisites (prerequisites : PipelinePrerequisites) : Except Str Unit :=
  let errors :=
    (if !prerequisites.mockLlm && (Str.strip prerequisites.openaiApiKey).isEmpty then
      ["OPENAI_API_KEY is required when MOCK_LLM=false".toList] else []) ++
    if !prerequisites.mockCrm then
      (if (Str.strip prerequisites.amocrmSubdomain).isEmpty then
        ["AMOCRM_SUBDOMAIN is required when MOCK_CRM=false".toList] else []) ++
      if (Str.strip prerequisites.amocrmAccessToken).isEmpty then
        ["AMOCRM_ACCESS_TOKEN is required when MOCK_CRM=false".toList] else []
    else []
  if errors.isEmpty then .ok () else .error (List.intercalate "; ".toList errors)

structure ProxyPrerequisites where
  mockParser : Bool
  ozonProxyList : Str
  proxyMarketApiKey : Str

/-- `validate_proxy_prerequisites(prerequisites, quota_checker=quota_checker)`. -/
def validateProxyPrerequisites (text : JsonText) (prerequisites : ProxyPrerequisites)
    (quotaChecker : Option ProxyMarketQuotaChecker) : Except PyError Unit :=
  if prerequisites.mockParser then .ok ()
  else if (Str.strip prerequisites.proxyMarketApiKey).isEmpty then .ok ()
  else if (Str.strip prerequisites.ozonProxyList).isEmpty then .ok ()
  else
    match quotaChecker with
    | none => .ok ()
    | some checker => checker.checkQuotaAvailable text

/-! ### The route -/

namespace CreateJob

/-- What the route reads of `Settings`. -/
structure Settings where
  demoMode : Bool := false
  mockParser : Bool := false
  mockLlm : Bool := false
  mockCrm : Bool := false
  targetProductCount : ℤ := 10000
  demoProductCount : ℤ := 100
  ozonProxyList : Str := []
  proxyMarketApiKey : Str := []
  proxyMarketMinTrafficBytes : ℤ := 1048576
  openaiApiKey : Str := []
  amocrmSubdomain : Str := []
  amocrmAccessToken : Str := []

namespace Settings

variable (settings : Settings)

/-- `settings.collection_target`. -/
def collectionTarget : ℤ :=
  if settings.demoMode then settings.demoProductCount else settings.targetProductCount

def pipelinePrerequisites : PipelinePrerequisites where
  mockLlm := settings.mockLlm
  mockCrm := settings.mockCrm
  openaiApiKey := settings.openaiApiKey
  amocrmSubdomain := settings.amocrmSubdomain
  amocrmAccessToken := settings.amocrmAccessToken

def proxyPrerequisites : ProxyPrerequisites where
  mockParser := settings.mockParser
  ozonProxyList := settings.ozonProxyList
  proxyMarketApiKey := settings.proxyMarketApiKey

end Settings

/-- `JobCreateRequest`, as FastAPI has validated it. -/
structure JobCreateRequest where
  collectionTarget : Option ℤ := none
  inRange : ∀ n ∈ collectionTarget, 1 ≤ n ∧ n ≤ 10000

/-- A request, and what it finds outside. -/
structure Submission where
  body : JobCreateRequest
  /-- The `Idempotency-Key` header. -/
  idempotencyKey : Option Str := none
  /-- `request.state.request_id`. -/
  requestId : Option Str := none
  /-- The `uuid4()` and the time of the `PipelineJob`. -/
  jobId : Str
  createdAt : Timestamp
  /-- What proxy.market answers to the GETs of the request. -/
  proxyMarket : (url : Str) → (params : List (Str × ℕ)) → QuotaAnswer

variable (text : JsonText) (settings : Settings) (submission : Submission)

/-- `body.collection_target or settings.collection_target`. -/
def target : ℤ :=
  match submission.body.collectionTarget with
  | none => settings.collectionTarget
  | some n => if n = 0 then settings.collectionTarget else n

/-- `PipelineJob(collection_target=target, correlation_id=correlation_id)`, to be submitted. -/
def jobPost : ApiProcess.JobPost where
  job :=
    { id := submission.jobId
      createdAt := submission.createdAt
      collectionTarget := target settings submission
      correlationId := submission.requestId }
  pending := rfl
  idempotencyKey := submission.idempotencyKey

/-- `build_proxy_quota_checker(settings)`. -/
def buildProxyQuotaChecker : Option ProxyMarketQuotaChecker :=
  if (Str.strip settings.proxyMarketApiKey).isEmpty then none
  else some {
    apiKey := settings.proxyMarketApiKey
    minRemainingBytes := settings.proxyMarketMinTrafficBytes
    get := submission.proxyMarket }

/-- How a request fares before the submission. -/
inductive Admission
  | admitted
  /-- `HTTPException(status_code, detail)`. -/
  | refused (statusCode : ℕ) (detail : Str)
  /-- Any other exception. -/
  | raised (exc : PyError)
  deriving DecidableEq

/-- `create_job` up to the submission; its state is the number of HTTP clients of quota checkers
that are open. -/
def admission : StateM ℕ Admission := do
  match validatePipelinePrerequisites settings.pipelinePrerequisites with
  | .error detail => return .refused 422 detail
  | .ok _ =>
    let checker := buildProxyQuotaChecker settings submission
    if checker.isSome then modify (· + 1)
    let checked := validateProxyPrerequisites text settings.proxyPrerequisites checker
    -- the `finally` block
    if checker.isSome then modify (· - 1)
    return match checked with
      | .ok _ => .admitted
      | .error exc =>
        if exc.kind = .proxyQuotaExhausted then .refused 402 exc.text else .raised exc

/-! ### Requests to a process -/

open ApiProcess

variable {ι ω σ : Type}

/-- The party that makes a move, if it is a request. -/
def requestOf : Move ι ω → Option ι
  | .request i _ => some i
  | .worker _ => none

/-- The checks of `create_job` in front of the process. -/
def checkpoint (submissions : ι → Submission) : Checkpoint ι (Move ι ω) Admission where
  party := requestOf
  ask i := ((admission text settings (submissions i)).run 0).1
  passes answer := decide (answer = .admitted)

variable [DecidableEq ι] [DecidableEq ω]

/-- A step of a request or of a worker. -/
def step (submissions : ι → Submission) (port : JobIdempotencyStorePort σ)
    (env : Str → Executor.ExecEnv) :
    Move ι ω → Checkpoint.State ι Admission (State ι ω σ) →
      Checkpoint.State ι Admission (State ι ω σ) :=
  (checkpoint text settings submissions).step
    (ApiProcess.step (fun i => jobPost settings (submissions i)) port env)

/-- No request has arrived. -/
def start (submissions : ι → Submission) (w : World σ) :
    Checkpoint.State ι Admission (State ι ω σ) where
  inner := ApiProcess.start (fun i => jobPost settings (submissions i)) w
  answer _ := none

/-- The response to a request. -/
inductive Response
  /-- Status 202. -/
  | accepted (job : PipelineJob) (isReplay : Bool)
  | refused (statusCode : ℕ) (detail : Str)
  /-- Status 500. -/
  | failed (exc : PyError)

omit [DecidableEq ι] [DecidableEq ω] in
/-- What a request is answered, once it is. -/
def response (s : Checkpoint.State ι Admission (State ι ω σ)) (i : ι) : Option Response :=
  match s.answer i with
  | none => none
  | some (.refused statusCode detail) => some (.refused statusCode detail)
  | some (.raised exc) => some (.failed exc)
  | some .admitted =>
    match s.inner.request i with
    | .answered job isReplay => some (.accepted job isReplay)
    | .raised exc => some (.failed exc)
    | _ => none

end CreateJob

end MarketplacePipeline
