import MarketplacePipeline.Jobs.Equiv.JobOutput

/-!
# A job with all mocks

With `MOCK_PARSER`, `MOCK_LLM` and `MOCK_CRM` nothing outside of the process is asked, and every job
is completed: it collects as many products as it was asked for, each of them gets the segment of
its tier, and there is a CRM task for each of the two segments as soon as it has a product
(`executes_mocks`).
-/

namespace MarketplacePipeline

open CrmTaskFactory JsonEnrichedProductRepository RunPipelineUseCase

/-- What `str.lower` does to ASCII. -/
def LowersAscii (lower : Str → Str) : Prop :=
  ∀ text : Str, (∀ c ∈ text, c.toNat < 128) → lower text = text.map Char.toLower

namespace MockCatalogCollector

variable {now : ℕ → Timestamp} {target : ℤ} {index : ℕ}

/-! ### The products -/

theorem length_products : (collect now target).products.length = target.toNat := by
  simp [collect]

theorem valid_buildProduct {t : Timestamp} (h : DateTimeFields.InRange t) :
    (buildProduct t index).Valid where
  price := by
    apply PyFloat.isMagnitude_natCast
    unfold priceOf
    split_ifs <;> omega
  nonneg := Nat.cast_nonneg _
  collectedAt := h

theorem valid_collect (hnow : ∀ index, DateTimeFields.InRange (now index))
    (htarget : (Nat.toDigits 10 target.natAbs).length ≤ 4300) : (collect now target).Valid where
  products p hp := by
    obtain ⟨index, -, rfl⟩ := List.mem_map.mp hp
    exact valid_buildProduct (hnow index)
  targetCount := htarget
  collectedCount := by
    show (Nat.toDigits 10 (collect now target).products.length).length ≤ 4300
    rw [length_products]
    rw [Nat.length_toDigits_le_iff (by norm_num) (by norm_num)] at htarget ⊢
    refine lt_of_le_of_lt ?_ htarget
    omega

/-! ### The segments -/

/-- The segment of a tier. -/
def segmentOf (index : ℕ) : PriceSegment :=
  if index % 3 = 0 then .economy else if index % 3 = 1 then .standard else .premium

/-- The products with the segments of their tiers. -/
def enriched (now : ℕ → Timestamp) (target : ℤ) : List EnrichedProduct :=
  (List.range' 1 target.toNat).map fun index =>
    { toProduct := buildProduct (now index) index, segment := segmentOf index }

theorem map_toProduct_enriched :
    (enriched now target).map EnrichedProduct.toProduct = (collect now target).products := by
  unfold enriched collect
  rw [List.map_map]
  rfl

theorem exists_segment_iff {segment : PriceSegment} :
    (∃ p ∈ enriched now target, p.segment = segment) ↔
      ∃ index : ℕ, 1 ≤ index ∧ index ≤ target.toNat ∧ segmentOf index = segment := by
  constructor
  · rintro ⟨p, hp, hsegment⟩
    obtain ⟨index, hindex, rfl⟩ := List.mem_map.mp hp
    rw [List.mem_range'_1] at hindex
    exact ⟨index, hindex.1, by omega, hsegment⟩
  · rintro ⟨index, hone, hle, hsegment⟩
    refine ⟨_, List.mem_map.mpr ⟨index, ?_, rfl⟩, hsegment⟩
    rw [List.mem_range'_1]
    omega

theorem exists_premium_iff :
    (∃ p ∈ enriched now target, p.segment = .premium) ↔ 2 ≤ target := by
  rw [exists_segment_iff]
  constructor
  · rintro ⟨index, hone, hle, hsegment⟩
    unfold segmentOf at hsegment
    split_ifs at hsegment
    omega
  · intro htarget
    exact ⟨2, by omega, by omega, rfl⟩

theorem exists_economy_iff :
    (∃ p ∈ enriched now target, p.segment = .economy) ↔ 3 ≤ target := by
  rw [exists_segment_iff]
  constructor
  · rintro ⟨index, hone, hle, hsegment⟩
    unfold segmentOf at hsegment
    split_ifs at hsegment
    omega
  · intro htarget
    exact ⟨3, by omega, by omega, rfl⟩

/-- The number of the tasks for a target. -/
def taskCount (target : ℤ) : ℕ := (if 2 ≤ target then 1 else 0) + if 3 ≤ target then 1 else 0

theorem length_buildTasks_enriched :
    (buildTasks (enriched now target)).length = taskCount target := by
  rw [length_buildTasks]
  simp only [exists_premium_iff, exists_economy_iff]
  rfl

/-! ### The mock classifier -/

theorem not_infix_of_notMem {token text : Str} {c : Char} (hc : c ∈ token) (htext : c ∉ text) :
    ¬ token <:+: text := fun h => htext (h.subset hc)

theorem isDigit_of_mem_toDigits {c : Char} (h : c ∈ Nat.toDigits 10 index) : c.isDigit = true :=
  (Number.isNumeral_toDigits index).isDigit c h

theorem lower_nameOf {lower : Str → Str} (hlower : LowersAscii lower) :
    lower (nameOf index) = (stemOf index).map Char.toLower ++ Nat.toDigits 10 index := by
  have hascii : ∀ c ∈ nameOf index, c.toNat < 128 := by
    intro c hc
    rcases List.mem_append.mp hc with hc | hc
    · have hstem : (stemOf index).all (fun c => c.toNat < 128) = true := by
        unfold stemOf
        split_ifs <;> rfl
      exact of_decide_eq_true (List.all_eq_true.mp hstem c hc)
    · have hrange := Str.toNat_of_isDigit (isDigit_of_mem_toDigits hc)
      omega
  have hdigits : (Nat.toDigits 10 index).map Char.toLower = Nat.toDigits 10 index := by
    conv_rhs => rw [← List.map_id (Nat.toDigits 10 index)]
    exact List.map_congr_left fun c hc => Number.toLower_of_isDigit (isDigit_of_mem_toDigits hc)
  rw [hlower _ hascii, nameOf, List.map_append, hdigits]

theorem notMem_numbered {c : Char} {stem : Str} (hstem : c ∉ stem) (hc : c.isDigit = false) :
    c ∉ stem ++ Nat.toDigits 10 index := by
  rw [List.mem_append, not_or]
  refine ⟨hstem, fun hmem => ?_⟩
  rw [isDigit_of_mem_toDigits hmem] at hc
  cases hc

variable {classifier : OpenAiSegmentClassifier}

/-- A mock product gets the segment of its tier. -/
theorem mockClassify_buildProduct (hlower : LowersAscii classifier.lower) (t : Timestamp) :
    classifier.mockClassify (buildProduct t index) =
      { toProduct := buildProduct t index, segment := segmentOf index } := by
  have hname : classifier.lower (buildProduct t index).name =
      (stemOf index).map Char.toLower ++ Nat.toDigits 10 index := lower_nameOf hlower
  unfold OpenAiSegmentClassifier.mockClassify segmentOf
  dsimp only
  rw [hname]
  by_cases heconomy : index % 3 = 0
  · have hstem : stemOf index = "BudgetPhone ".toList := if_pos heconomy
    have hbudget : "budget".toList <:+:
        (stemOf index).map Char.toLower ++ Nat.toDigits 10 index := by
      rw [hstem]
      exact ⟨[], "phone ".toList ++ Nat.toDigits 10 index, rfl⟩
    rw [if_pos (Or.inl hbudget), if_pos heconomy]
  rw [if_neg heconomy]
  -- a letter of each word that is looked for is missing in the name
  have hmissing : ∀ {token stem : Str} {c : Char}, c ∈ token → c ∉ stem → c.isDigit = false →
      ¬ token <:+: stem ++ Nat.toDigits 10 index :=
    fun hc hstem hdigit => not_infix_of_notMem hc (notMem_numbered hstem hdigit)
  by_cases hstandard : index % 3 = 1
  · have hstem : (stemOf index).map Char.toLower = "midrange ".toList := by
      rw [stemOf, if_neg heconomy, if_pos hstandard]
      rfl
    have hprice : priceOf index = 25000 + index % 100 * 200 := by
      rw [priceOf, if_neg heconomy, if_pos hstandard]
    have hlow : ¬ (buildProduct t index).price < 15000 := by
      show ¬ (priceOf index : ℚ) < 15000
      rw [not_lt]
      exact_mod_cast (by omega : 15000 ≤ priceOf index)
    have hhigh : ¬ 60000 < (buildProduct t index).price := by
      show ¬ 60000 < (priceOf index : ℚ)
      rw [not_lt]
      exact_mod_cast (by omega : priceOf index ≤ 60000)
    rw [hstem, if_neg, if_neg, if_neg hlow, if_neg hhigh, if_pos hstandard]
    · rintro (h | h | h | h)
      · exact hmissing (c := 'f') (by decide) (by decide) rfl h
      · exact hmissing (c := 'p') (by decide) (by decide) rfl h
      · exact hmissing (c := 'p') (by decide) (by decide) rfl h
      · exact hmissing (c := 'п') (by decide) (by decide) rfl h
    · rintro (h | h | h)
      · exact hmissing (c := 'b') (by decide) (by decide) rfl h
      · exact hmissing (c := 'c') (by decide) (by decide) rfl h
      · exact hmissing (c := 'д') (by decide) (by decide) rfl h
  · have hstem : (stemOf index).map Char.toLower = "flagship pro ".toList := by
      rw [stemOf, if_neg heconomy, if_neg hstandard]
      rfl
    rw [hstem, if_neg, if_pos, if_neg hstandard]
    · exact Or.inl ⟨[], " pro ".toList ++ Nat.toDigits 10 index, rfl⟩
    · rintro (h | h | h)
      · exact hmissing (c := 'b') (by decide) (by decide) rfl h
      · exact hmissing (c := 'e') (by decide) (by decide) rfl h
      · exact hmissing (c := 'д') (by decide) (by decide) rfl h

theorem run_classify_collect (hmock : classifier.settings.mockLlm = true)
    (hlower : LowersAscii classifier.lower) (endpoint : LlmEndpoint) (posts : List LlmPost) :
    (classifier.classify endpoint (collect now target).products).run posts =
      .ok (enriched now target) posts := by
  have hmap : (collect now target).products.map classifier.mockClassify = enriched now target := by
    unfold collect enriched
    rw [List.map_map]
    exact List.map_congr_left fun index _ => mockClassify_buildProduct hlower (now index)
  unfold OpenAiSegmentClassifier.classify
  by_cases hnil : (collect now target).products = []
  · rw [if_pos hnil, ← hmap, hnil]
    rfl
  · rw [if_neg hnil, if_pos hmock, hmap]
    rfl

end MockCatalogCollector

/-! ### The job -/

namespace Executor

open MockCatalogCollector

variable {σ : Type} {container : Container (CrmWorld σ)} {env : ExecEnv} {w : ExecWorld}
  {job : PipelineJob}

/-- **A job with all mocks is completed**, with as many products as it was asked for, each of them
in the segment of its tier.  An error message that the row had before stays. -/
theorem executes_mocks {gateway : AmoCrmGateway σ} {crm : AmoCrm} {now : ℕ → Timestamp} {fuel : ℕ}
    {program : EStateM PyError (PipelineWorld (OutputWorld (CrmWorld σ))) PipelineResultDTO}
    {pw : PipelineWorld (OutputWorld (CrmWorld σ))}
    (hget : w.repository.get job.id = some job) (hrunning : env.runningUpdate = .ok ())
    (hbuilt : env.container = .ok ()) (hfinal : env.finalUpdate = .ok ())
    (hprogram : (container.mockParserUseCase now job).execute fuel = some program)
    (huse : env.useCase = outcomeOf (program.run pw))
    (hllm : container.classifier.settings.mockLlm = true)
    (hlower : LowersAscii container.classifier.lower)
    (hgateway : container.createTask = gateway.createTask crm)
    (hcrm : gateway.settings.mockCrm = true)
    (hnow : ∀ index, DateTimeFields.InRange (now index))
    (htarget : (Nat.toDigits 10 (container.targetFor job).natAbs).length ≤ 4300) :
    ∃ row, (worldAfter ((executePipelineJob env job.id).run w)).repository.get job.id = some row ∧
      row.status = .completed ∧
      row.resultFields = (some ((container.targetFor job).toNat : ℤ),
        some ((container.targetFor job).toNat : ℤ), some (taskCount (container.targetFor job) : ℤ),
        some container.outputPath, job.errorMessage) ∧
      ((filesOf (worldAfter (program.run pw))).read container.outputPath).bind readDataset =
        some (collect now (container.targetFor job), enriched now (container.targetFor job)) ∧
      ∀ n, n ≠ container.outputPath → n ≠ tmpPath container.outputPath →
        (filesOf (worldAfter (program.run pw))).read n = (filesOf pw).read n := by
  have hrun : program.run pw = ((container.runPipelineUseCase job).afterCollect
      (collect now (container.targetFor job))).run pw := by
    rw [← Option.some.inj hprogram]
    rfl
  rw [hrun] at huse ⊢
  refine ⟨finalRow env job, get_after_of_container_ok hget hrunning hbuilt hfinal, ?_⟩
  rcases afterCollect_of_classified (valid_collect hnow htarget)
      (run_classify_collect hllm hlower container.endpoint pw.llmPosts) map_toProduct_enriched with
    ⟨exc, w', -, ⟨task, u, u', htask⟩, -⟩ | ⟨outcomes, w', hreturned, hlength, hread, hothers⟩
  · -- a gateway with `MOCK_CRM` does not raise
    obtain ⟨outcome, v, hreturns⟩ :=
      AmoCrmGateway.createTask_returns_of_mock gateway crm hcrm task u
    rw [hgateway, hreturns] at htask
    cases htask
  · rw [hreturned] at huse ⊢
    obtain ⟨hstatus, hresult⟩ := finalRow_completed job huse
    have hcollected : (collect now (container.targetFor job)).collectedCount =
        (container.targetFor job).toNat := length_products
    have hclassified : (enriched now (container.targetFor job)).length =
        (container.targetFor job).toNat := by simp [enriched]
    rw [hlength, length_buildTasks_enriched, hcollected, hclassified] at hresult
    exact ⟨hstatus, hresult, hread, hothers⟩

/-! ### Five mock products -/

/-- A container with `MOCK_LLM` and `MOCK_CRM`. -/
def mockContainer : Container (CrmWorld (Str → Option IdempotencyRecord)) :=
  { brokenContainer with classifier := { pairClassifier with settings := { mockLlm := true } } }

/-- The use case of the job, with `MOCK_PARSER`. -/
def mockProgram : EStateM PyError
    (PipelineWorld (OutputWorld (CrmWorld (Str → Option IdempotencyRecord)))) PipelineResultDTO :=
  ((mockContainer.mockParserUseCase (fun _ => 0) submittedJob).execute 0).get rfl

/-- The execution of the job. -/
def mockEnv : ExecEnv := { smoothEnv with useCase := outcomeOf (mockProgram.run brokenStart) }

theorem executes_mocks_fiveProducts :
    ∃ row, (worldAfter ((executePipelineJob mockEnv submittedJob.id).run
        workerWorld)).repository.get submittedJob.id = some row ∧
      row.status = .completed ∧
      row.resultFields = (some 5, some 5, some 2, some mockContainer.outputPath, none) ∧
      ((filesOf (worldAfter (mockProgram.run brokenStart))).read mockContainer.outputPath).bind
        readDataset = some (collect (fun _ => 0) 5, enriched (fun _ => 0) 5) ∧
      ∀ n, n ≠ mockContainer.outputPath → n ≠ tmpPath mockContainer.outputPath →
        (filesOf (worldAfter (mockProgram.run brokenStart))).read n =
          (filesOf brokenStart).read n :=
  have hprogram : (mockContainer.mockParserUseCase (fun _ => 0) submittedJob).execute 0 =
      some mockProgram := (Option.some_get _).symm
  executes_mocks (by decide) rfl rfl rfl hprogram rfl rfl (fun _ _ => rfl)
    (show mockContainer.createTask = mockGateway.createTask (AmoCrmGateway.pagedAccount fun _ =>
      AmoCrmGateway.returned []) from rfl) rfl (fun _ => ⟨le_rfl, by norm_num⟩) (by decide)

end Executor

end MarketplacePipeline
