import MarketplacePipeline.Api.JobRoutes
import MarketplacePipeline.Jobs.Equiv.ProcessAnswers
import MarketplacePipeline.Proxy.Equiv.Account

/-!
# What becomes of a `POST`

A request is refused exactly if credentials are missing, of which its answer names all, or if the
proxies have no traffic left (`Refused`).  What is refused leaves no trace: neither a row, nor a
reservation of its key, nor anything that another request could see.
-/

namespace MarketplacePipeline.CreateJob

open ApiProcess Schedule Accounting

/-! ### Prerequisites -/

/-- What the pipeline needs: whether it is mocked, its value, and what is said if it is missing. -/
def requirements (settings : Settings) : List (Bool × Str × Str) :=
  [(settings.mockLlm, settings.openaiApiKey,
      "OPENAI_API_KEY is required when MOCK_LLM=false".toList),
    (settings.mockCrm, settings.amocrmSubdomain,
      "AMOCRM_SUBDOMAIN is required when MOCK_CRM=false".toList),
    (settings.mockCrm, settings.amocrmAccessToken,
      "AMOCRM_ACCESS_TOKEN is required when MOCK_CRM=false".toList)]

/-- What is said of requirements that are needed and blank. -/
def complaints (requirements : List (Bool × Str × Str)) : List Str :=
  (requirements.filter fun r => !r.1 && (Str.strip r.2.1).isEmpty).map fun r => r.2.2

theorem complaints_cons (r : Bool × Str × Str) (rs : List (Bool × Str × Str)) :
    complaints (r :: rs) =
      (if !r.1 && (Str.strip r.2.1).isEmpty then [r.2.2] else []) ++ complaints rs := by
  unfold complaints
  rw [List.filter_cons]
  split_ifs <;> rfl

/-- The settings that are missing. -/
def missing (settings : Settings) : List Str := complaints (requirements settings)

theorem validatePipelinePrerequisites_eq (settings : Settings) :
    validatePipelinePrerequisites settings.pipelinePrerequisites =
      if missing settings = [] then .ok ()
      else .error (List.intercalate "; ".toList (missing settings)) := by
  unfold validatePipelinePrerequisites Settings.pipelinePrerequisites
  dsimp only
  generalize herrors : (_ ++ _ : List Str) = errors
  have hmissing : missing settings = errors := by
    rw [← herrors]
    unfold missing requirements
    rw [complaints_cons, complaints_cons, complaints_cons, show complaints [] = [] from rfl]
    dsimp only
    cases settings.mockCrm with
    | true => rfl
    | false => simp only [Bool.not_false, Bool.true_and, if_true, List.append_nil]
  rw [hmissing]
  cases errors <;> rfl

variable (text : JsonText) (settings : Settings) (submission : Submission)

/-- Why a request is refused, and with which status and detail. -/
inductive Refused : ℕ → Str → Prop
  | unconfigured (h : missing settings ≠ []) :
      Refused 422 (List.intercalate "; ".toList (missing settings))
  | exhausted {checker : ProxyMarketQuotaChecker} {detail : Str} (h : missing settings = [])
      (hlive : settings.mockParser = false) (hproxies : Str.strip settings.ozonProxyList ≠ [])
      (hchecker : buildProxyQuotaChecker settings submission = some checker)
      (hquota : checker.checkQuotaAvailable text = .error ⟨.proxyQuotaExhausted, detail⟩) :
      Refused 402 detail

variable {text settings submission}

/-- The check of the proxies, which is made if they are used and there is a key. -/
theorem validateProxyPrerequisites_error_iff {exc : PyError} :
    validateProxyPrerequisites text settings.proxyPrerequisites
        (buildProxyQuotaChecker settings submission) = .error exc ↔
      settings.mockParser = false ∧ Str.strip settings.ozonProxyList ≠ [] ∧
        ∃ checker, buildProxyQuotaChecker settings submission = some checker ∧
          checker.checkQuotaAvailable text = .error exc := by
  unfold validateProxyPrerequisites Settings.proxyPrerequisites
  dsimp only
  cases hkey : (Str.strip settings.proxyMarketApiKey).isEmpty with
  | true =>
    have hnone : buildProxyQuotaChecker settings submission = none := by
      unfold buildProxyQuotaChecker
      rw [hkey, if_pos rfl]
    rw [hnone]
    simp
  | false =>
    cases settings.mockParser with
    | true => simp
    | false =>
      cases hproxies : (Str.strip settings.ozonProxyList).isEmpty with
      | true =>
        have hblank := List.isEmpty_iff.mp hproxies
        simp [hblank]
      | false =>
        have hused := List.isEmpty_eq_false_iff.mp hproxies
        cases buildProxyQuotaChecker settings submission <;> simp [hused]

/-- The answer of `admission`. -/
def verdict (text : JsonText) (settings : Settings) (submission : Submission) : Admission :=
  if missing settings = [] then
    match validateProxyPrerequisites text settings.proxyPrerequisites
      (buildProxyQuotaChecker settings submission) with
    | .ok _ => .admitted
    | .error exc =>
      if exc.kind = .proxyQuotaExhausted then .refused 402 exc.text else .raised exc
  else .refused 422 (List.intercalate "; ".toList (missing settings))

/-- No HTTP client is left open, whatever the checks do. -/
theorem run_admission (openClients : ℕ) :
    (admission text settings submission).run openClients =
      (verdict text settings submission, openClients) := by
  unfold admission verdict
  rw [validatePipelinePrerequisites_eq]
  split_ifs with hmissing
  · cases buildProxyQuotaChecker settings submission <;> rfl
  · rfl

theorem verdict_eq_refused_iff {statusCode : ℕ} {detail : Str} :
    verdict text settings submission = .refused statusCode detail ↔
      Refused text settings submission statusCode detail := by
  unfold verdict
  constructor
  · intro h
    split_ifs at h with hmissing
    · cases hchecked : validateProxyPrerequisites text settings.proxyPrerequisites
        (buildProxyQuotaChecker settings submission) with
      | ok _ =>
        rw [hchecked] at h
        cases h
      | error exc =>
        rw [hchecked] at h
        dsimp only at h
        split_ifs at h with hkind
        obtain ⟨hlive, hproxies, checker, hchecker, hquota⟩ :=
          validateProxyPrerequisites_error_iff.mp hchecked
        cases h
        refine .exhausted hmissing hlive hproxies hchecker ?_
        rw [hquota, ← hkind]
    · cases h
      exact .unconfigured hmissing
  · intro h
    cases h with
    | unconfigured hmissing => rw [if_neg hmissing]
    | exhausted hmissing hlive hproxies hchecker hquota =>
      have hchecked := validateProxyPrerequisites_error_iff.mpr
        ⟨hlive, hproxies, _, hchecker, hquota⟩
      rw [if_pos hmissing, hchecked]
      exact if_pos rfl

/-! ### Requests to a process -/

section Process

variable {ι ω σ : Type} {submissions : ι → Submission} {i : ι}

theorem ask_checkpoint (i : ι) :
    (checkpoint (ω := ω) text settings submissions).ask i = verdict text settings (submissions i) :=
  congrArg Prod.fst (run_admission 0)

theorem lets_iff : (checkpoint (ω := ω) text settings submissions).Lets i ↔
    verdict text settings (submissions i) = .admitted := by
  unfold Checkpoint.Lets
  rw [ask_checkpoint]
  exact decide_eq_true_iff

variable [DecidableEq ι] [DecidableEq ω] {port : JobIdempotencyStorePort σ}
  {env : Str → Executor.ExecEnv}

/-- A request that does not move stays where it is. -/
theorem request_run_of_forall {posts : ι → JobPost} {s : State ι ω σ} {moves : List (Move ι ω)}
    (h : ∀ move ∈ moves, requestOf move ≠ some i) :
    (run (ApiProcess.step posts port env) s moves).request i = s.request i := by
  -- only the moves of a request change where it stands
  induction moves generalizing s with
  | nil => rfl
  | cons move moves ih =>
    rw [run_cons, ih fun m hm => h m (List.mem_cons_of_mem move hm)]
    cases move with
    | worker k => rfl
    | request j elapsed =>
      have hne : i ≠ j := fun hij => h _ List.mem_cons_self (congrArg some hij.symm)
      exact Function.update_of_ne hne _ _

omit [DecidableEq ι] [DecidableEq ω] in
theorem asked_start (w₀ : World σ) : (checkpoint (ω := ω) text settings submissions).Asked
    (start settings submissions w₀ : Checkpoint.State ι Admission (State ι ω σ)) :=
  fun _ _ h => by cases h

omit [DecidableEq ι] [DecidableEq ω] in
theorem response_eq_refused_iff {s : Checkpoint.State ι Admission (State ι ω σ)}
    {statusCode : ℕ} {detail : Str} : response s i = some (.refused statusCode detail) ↔
      s.answer i = some (.refused statusCode detail) := by
  unfold response
  cases s.answer i with
  | none => simp
  | some answer =>
    cases answer with
    | admitted => cases s.inner.request i <;> simp
    | refused => simp
    | raised => simp

theorem created_start (post : JobPost) : RequestPc.created post post.start = 0 := by
  unfold JobPost.start
  split <;> rfl

variable [Fintype ι] [Fintype ω]

/-- **What is refused leaves no trace.**  A request is answered 422 or 402 exactly if it has come
and is `Refused`.  What happens in the process is a run of the process alone, and the same as if
the refused requests had not come; its rows are those of before and one for each admitted request
that has created its job. -/
theorem refuses_without_trace (text : JsonText) (settings : Settings)
    (submissions : ι → Submission) (port : JobIdempotencyStorePort σ)
    (env : Str → Executor.ExecEnv) {w₀ : World σ} (hfresh : w₀.Fresh)
    (schedule : List (Move ι ω)) :
    let s := run (step text settings submissions port env) (start settings submissions w₀) schedule
    (∀ i statusCode detail, response s i = some (.refused statusCode detail) ↔
      (∃ move ∈ schedule, requestOf move = some i) ∧
        Refused text settings (submissions i) statusCode detail) ∧
    (∃ moves, moves.Sublist schedule ∧
      s.inner = run (ApiProcess.step (fun i => jobPost settings (submissions i)) port env)
        (ApiProcess.start (fun i => jobPost settings (submissions i)) w₀) moves) ∧
    s.inner = (run (step text settings submissions port env) (start settings submissions w₀)
      (schedule.filter fun move =>
        (checkpoint text settings submissions).MayMove move)).inner ∧
    s.inner.world.repository.ids = w₀.repository.ids +
      total (fun i pc => if verdict text settings (submissions i) = .admitted then
        RequestPc.created (jobPost settings (submissions i)) pc else 0) s.inner.request := by
  intro s
  have hasked : (checkpoint text settings submissions).Asked
      (start settings submissions w₀ : Checkpoint.State ι Admission (State ι ω σ)) := asked_start w₀
  obtain ⟨moves, hmoves⟩ : ∃ moves, moves = (checkpoint text settings submissions).through
      (fun _ => false) schedule := ⟨_, rfl⟩
  have hinner : s.inner = run (ApiProcess.step (fun i => jobPost settings (submissions i)) port env)
      (ApiProcess.start (fun i => jobPost settings (submissions i)) w₀) moves := by
    rw [hmoves]
    exact Checkpoint.inner_run hasked schedule
  refine ⟨fun i statusCode detail => ?_, ⟨moves, ?_, hinner⟩,
    (Checkpoint.inner_run_filter hasked schedule).symm, ?_⟩
  · rw [response_eq_refused_iff, ← verdict_eq_refused_iff]
    have hanswer : s.answer i = _ := Checkpoint.answer_run hasked schedule i
    rw [hanswer, ask_checkpoint]
    show (if ∃ move ∈ schedule, requestOf move = some i then some (verdict text settings
      (submissions i)) else none) = _ ↔ _
    split_ifs with hcome
    · simp [hcome]
    · simp [hcome]
  · rw [hmoves]
    exact Checkpoint.through_sublist _ _
  · have hids := (answers_run (fun i => jobPost settings (submissions i)) port env hfresh
      moves).ids_eq
    rw [← hinner] at hids
    rw [hids]
    congr 1
    apply Finset.sum_congr rfl
    intro i _
    by_cases hverdict : verdict text settings (submissions i) = .admitted
    · exact (if_pos hverdict).symm
    · -- the request has not made a move behind the checkpoint
      have hstays : s.inner.request i = (jobPost settings (submissions i)).start := by
        rw [hinner]
        apply request_run_of_forall
        intro move hmove hi
        rw [hmoves] at hmove
        exact hverdict (lets_iff.mp (Checkpoint.mayMove_of_mem_through hmove i hi))
      rw [hstays]
      exact (created_start _).trans (if_neg hverdict).symm

end Process

/-! ### A request without traffic -/

/-- Settings of a live collector, with a mocked LLM and a mocked CRM. -/
def liveParser : Settings where
  mockLlm := true
  mockCrm := true
  ozonProxyList := "http://proxy:8000".toList
  proxyMarketApiKey := "key".toList

/-- One request finds a package that is used up, the other one finds a fresh package. -/
def twoSubmissions (fresh : Bool) : Submission where
  body := ⟨none, by simp⟩
  jobId := if fresh then "job-2".toList else "job-1".toList
  createdAt := 0
  proxyMarket := (ProxyMarketQuotaChecker.accountChecker
    [if fresh then ProxyMarketQuotaChecker.freshPackage
      else ProxyMarketQuotaChecker.usedPackage]).get

/-- The moves of the requests and of a worker, mixed. -/
def mixedMoves : List (Move Bool Unit) :=
  [.request false 1, .request true 0, .request false 0, .request true 1, .worker (),
    .request true 0, .worker (), .request true 0]

theorem refuses_without_trace_noTraffic :
    let s := run (step ProxyMarketQuotaChecker.noJson liveParser twoSubmissions
      (memoryJobIdempotencyStore 60) fun _ => Executor.smoothEnv)
      (start liveParser twoSubmissions freshProcess) mixedMoves
    (∀ i statusCode detail, response s i = some (.refused statusCode detail) ↔
      (∃ move ∈ mixedMoves, requestOf move = some i) ∧
        Refused ProxyMarketQuotaChecker.noJson liveParser (twoSubmissions i) statusCode detail) ∧
    (∃ moves, moves.Sublist mixedMoves ∧
      s.inner = run (ApiProcess.step (fun i => jobPost liveParser (twoSubmissions i))
        (memoryJobIdempotencyStore 60) fun _ => Executor.smoothEnv)
        (ApiProcess.start (fun i => jobPost liveParser (twoSubmissions i)) freshProcess) moves) ∧
    s.inner = (run (step ProxyMarketQuotaChecker.noJson liveParser twoSubmissions
      (memoryJobIdempotencyStore 60) fun _ => Executor.smoothEnv)
      (start liveParser twoSubmissions freshProcess)
      (mixedMoves.filter fun move =>
        (checkpoint ProxyMarketQuotaChecker.noJson liveParser twoSubmissions).MayMove move)).inner ∧
    s.inner.world.repository.ids = freshProcess.repository.ids +
      total (fun i pc => if verdict ProxyMarketQuotaChecker.noJson liveParser (twoSubmissions i) =
        .admitted then RequestPc.created (jobPost liveParser (twoSubmissions i)) pc else 0)
        s.inner.request :=
  (refuses_without_trace ProxyMarketQuotaChecker.noJson liveParser twoSubmissions
    (memoryJobIdempotencyStore 60) (fun _ => Executor.smoothEnv) freshProcess_fresh mixedMoves :)

end MarketplacePipeline.CreateJob
