import MarketplacePipeline.Io.Equiv.AtomicWrite
import MarketplacePipeline.Jobs.Equiv.Executor
import MarketplacePipeline.Jobs.JobOutput
import MarketplacePipeline.Pipeline.Equiv.EnrichedProductFile
import MarketplacePipeline.Pipeline.Equiv.RunPipeline
import MarketplacePipeline.Python.Frame

/-!
# The row of a job and the file of its products

An execution leaves either a completed job and a file with exactly what it has collected and
classified, or a failed job and the files of before (`executes_with_output`).
-/

namespace MarketplacePipeline

open OzonCatalogCollector CrmTaskFactory JsonEnrichedProductRepository RunPipelineUseCase

/-! ### The collection -/

section Collection

variable {fetchPage : ℕ → FetchOutcome} {ozonHttp : Bool} {target : ℤ} {fuel : ℕ}
  {c : OzonCatalogCollector.Collection} {collection : CollectionResult}

theorem mem_page_of_mem_collected (h : CollectedAs fetchPage target c collection) {p : Product}
    (hp : p ∈ collection.products) : ∃ page batch, fetchPage page = .batch batch ∧ p ∈ batch := by
  rw [h.products_eq] at hp
  have hmem := KeepFirst.mem_of_mem_keepFirst Product.id (List.mem_of_mem_take hp)
  obtain ⟨page, -, hpage⟩ := List.mem_flatMap.mp hmem
  unfold batchAt at hpage
  split at hpage
  · rename_i batch hbatch
    exact ⟨page, batch, hbatch, hpage⟩
  · cases hpage

/-- What valid pages make of a call that returned. -/
theorem valid_collection (hcollect : collect fetchPage ozonHttp target fuel = some c)
    (houtcome : c.outcome = .ok collection)
    (hpages : ∀ page batch, fetchPage page = .batch batch → ∀ p ∈ batch, p.Valid)
    (htarget : (Nat.toDigits 10 target.natAbs).length ≤ 4300) :
    (collection.products.map Product.id).Nodup ∧ collection.Valid ∧
      collection.collectedCount = collection.products.length := by
  obtain ⟨exit, n, hexit, hreq, hout⟩ := collect_exit hcollect
  rw [houtcome] at hout
  cases exit with
  | raised exc => cases hout
  | finished products degraded errorMessage =>
    obtain rfl := Except.ok.inj hout
    have hcollected := hexit.collectedAs hreq
    -- the count is at most the target, so that it has no more digits
    refine ⟨hcollected.nodup, ⟨fun p hp => ?_, htarget, ?_⟩, hcollected.count_eq⟩
    · obtain ⟨page, batch, hbatch, hmem⟩ := mem_page_of_mem_collected hcollected hp
      exact hpages page batch hbatch p hmem
    · have hle := hcollected.count_le
      rw [Nat.length_toDigits_le_iff (by norm_num) (by norm_num)] at htarget ⊢
      refine lt_of_le_of_lt ?_ htarget
      omega

/-- The collector raises nothing but `ProxyQuotaExhaustedError`. -/
theorem isException_of_collect (hcollect : collect fetchPage ozonHttp target fuel = some c)
    {exc : PyError} (houtcome : c.outcome = .error exc) : exc.isException = true := by
  obtain ⟨exit, n, hexit, hreq, hout⟩ := collect_exit hcollect
  rw [houtcome] at hout
  cases exit with
  | raised exc' =>
    obtain rfl := Except.error.inj hout
    have hkind := ((hexit.raised_iff hreq exc).mp rfl).1
    rw [PyError.isException, hkind]
    rfl
  | finished products degraded errorMessage => cases hout

end Collection

/-- `classify` returns every product, whether it asks the LLM or not. -/
theorem run_classify_toProduct (classifier : OpenAiSegmentClassifier) (endpoint : LlmEndpoint)
    {products : List Product} (hsize : 1 ≤ classifier.settings.llmBatchSize)
    (hnodup : (products.map Product.id).Nodup) (posts : List LlmPost) :
    ∃ enriched posts', (classifier.classify endpoint products).run posts = .ok enriched posts' ∧
      enriched.map EnrichedProduct.toProduct = products := by
  cases hmock : classifier.settings.mockLlm with
  | false =>
    exact ⟨_, _, classifier.run_classify endpoint hmock hsize hnodup posts,
      classifier.map_toProduct_enrich endpoint posts.length products⟩
  | true =>
    unfold OpenAiSegmentClassifier.classify
    rw [hmock]
    by_cases hnil : products = []
    · rw [if_pos hnil, hnil]
      exact ⟨[], posts, rfl, rfl⟩
    · rw [if_neg hnil, if_pos rfl]
      refine ⟨_, posts, rfl, ?_⟩
      rw [List.map_map]
      exact List.map_id products

/-! ### The ports -/

section Ports

variable {U α : Type}

theorem run_onGateway {program : EStateM PyError U α} {w : OutputWorld U} {a : α} {gateway : U}
    (h : program.run w.gateway = .ok a gateway) :
    (onGateway program).run w = .ok a { w with gateway := gateway } := by
  show onGateway program w = _
  unfold onGateway
  rw [h]

theorem run_onGateway_error {program : EStateM PyError U α} {w : OutputWorld U} {exc : PyError}
    {gateway : U} (h : program.run w.gateway = .error exc gateway) :
    (onGateway program).run w = .error exc { w with gateway := gateway } := by
  show onGateway program w = _
  unfold onGateway
  rw [h]

theorem run_onFiles {program : EStateM PyError (Files Str (List UInt8)) α} {w : OutputWorld U}
    {a : α} {files : Files Str (List UInt8)} (h : program.run w.files = .ok a files) :
    (onFiles program).run w = .ok a { w with files := files } := by
  show onFiles program w = _
  unfold onFiles
  rw [h]

/-- The files of a run. -/
def filesOf (w : PipelineWorld (OutputWorld U)) : Files Str (List UInt8) := w.rest.files

theorem leaves_onGateway (program : EStateM PyError U α) :
    Leaves filesOf (onRest (onGateway program)) := by
  intro w
  cases hrun : program.run w.rest.gateway with
  | ok a gateway => rw [run_onRest (run_onGateway hrun)]; rfl
  | error exc gateway => rw [run_onRest_error (run_onGateway_error hrun)]; rfl

theorem exists_of_run_onGateway_error {program : EStateM PyError U α}
    {w w' : PipelineWorld (OutputWorld U)} {exc : PyError}
    (h : (onRest (onGateway program)).run w = .error exc w') :
    ∃ gateway, program.run w.rest.gateway = .error exc gateway := by
  cases hrun : program.run w.rest.gateway with
  | ok a gateway =>
    rw [run_onRest (run_onGateway hrun)] at h
    cases h
  | error exc' gateway =>
    rw [run_onRest_error (run_onGateway_error hrun)] at h
    cases h
    exact ⟨gateway, rfl⟩

end Ports

/-! ### A run -/

section Runs

variable {U : Type} {container : Container U} {job : PipelineJob} {fuel : ℕ}

/-- A run after the collection, if the classifier returns: the gateway has raised and the files are
those of before, or the file holds what was collected and classified. -/
theorem afterCollect_of_classified {collection : CollectionResult} {enriched : List EnrichedProduct}
    {posts : List LlmPost} (hvalid : collection.Valid) {w : PipelineWorld (OutputWorld U)}
    (hclassify : (container.classifier.classify container.endpoint collection.products).run
      w.llmPosts = .ok enriched posts)
    (hproducts : enriched.map EnrichedProduct.toProduct = collection.products) :
    (∃ exc w', ((container.runPipelineUseCase job).afterCollect collection).run w = .error exc w' ∧
        (∃ task u u', (container.createTask task).run u = .error exc u') ∧
        filesOf w' = filesOf w) ∨
      ∃ outcomes w', ((container.runPipelineUseCase job).afterCollect collection).run w =
          .ok ⟨collection, enriched, outcomes, some container.outputPath⟩ w' ∧
        outcomes.length = (buildTasks enriched).length ∧
        ((filesOf w').read container.outputPath).bind readDataset = some (collection, enriched) ∧
        ∀ n, n ≠ container.outputPath → n ≠ tmpPath container.outputPath →
          (filesOf w').read n = (filesOf w).read n := by
  have henriched : ((container.runPipelineUseCase job).classify collection.products).run w =
      .ok enriched { w with llmPosts := posts } := run_onLlm hclassify
  -- the calls of the gateway are between the LLM and the file, and touch neither
  have hleaves := Leaves.mapM (fun task => leaves_onGateway (container.createTask task))
    (buildTasks enriched)
  unfold afterCollect
  rw [EStateM.run_bind, henriched]
  dsimp only
  rw [EStateM.run_bind]
  cases htasks : ((buildTasks enriched).mapM
      (container.runPipelineUseCase job).createTask).run { w with llmPosts := posts } with
  | error exc w₁ =>
    obtain ⟨task, -, u, u', hraised⟩ := exists_of_run_mapM_error htasks
    obtain ⟨gateway, hgateway⟩ := exists_of_run_onGateway_error hraised
    have hfiles := hleaves.of_run_error htasks
    exact Or.inl ⟨exc, w₁, rfl, ⟨task, _, gateway, hgateway⟩, hfiles⟩
  | ok outcomes w₁ =>
    have hfiles := hleaves.of_run_ok htasks
    have hvalid' : ∀ p ∈ enriched, p.toProduct.Valid := fun p hp =>
      hvalid.products _ (hproducts ▸ List.mem_map_of_mem hp)
    obtain ⟨files, hsave, hread, hother⟩ :=
      run_save container.outputDir hvalid' hvalid w₁.rest.files
    have hsaved : ((container.runPipelineUseCase job).save enriched collection).run w₁ =
        .ok container.outputPath { w₁ with rest := { w₁.rest with files := files } } :=
      run_onRest (run_onFiles hsave)
    refine Or.inr ⟨outcomes, { w₁ with rest := { w₁.rest with files := files } }, ?_, ?_, ?_,
      fun n hn htmp => ?_⟩
    · dsimp only
      rw [EStateM.run_bind, hsaved]
      rfl
    · exact length_of_run_mapM htasks
    · exact hread
    · exact (hother n hn htmp).trans (congrArg (fun files => Files.read files n) hfiles)

end Runs

/-! ### The row and the file -/

section Rows

variable {U : Type}

/-- What an execution leaves of a run of its use case from the world `w` to the world `w'`: the row
of the job and the files. -/
inductive RowAndFile (env : Executor.ExecEnv) (container : Container U) (job : PipelineJob)
    (fuel : ℕ) (w w' : PipelineWorld (OutputWorld U)) (row : PipelineJob) : Prop
  /-- The use case has returned what the collector and the classifier have returned, the file holds
  it, and the job is completed. -/
  | completed {c : OzonCatalogCollector.Collection} {result : PipelineResultDTO}
      {posts : List LlmPost}
      (huse : env.useCase = .ok result)
      (hcollect : collect container.fetchPage container.ozonHttp (container.targetFor job) fuel =
        some c)
      (houtcome : c.outcome = .ok result.collectionResult)
      (hclassify : (container.classifier.classify container.endpoint
        result.collectionResult.products).run w.llmPosts = .ok result.enrichedProducts posts)
      (hproducts : result.enrichedProducts.map EnrichedProduct.toProduct =
        result.collectionResult.products)
      (hfile : ((filesOf w').read container.outputPath).bind readDataset =
        some (result.collectionResult, result.enrichedProducts))
      (hothers : ∀ n, n ≠ container.outputPath → n ≠ tmpPath container.outputPath →
        (filesOf w').read n = (filesOf w).read n)
      (hstatus : row.status = .completed)
      (hresult : row.resultFields = (some (result.collectionResult.products.length : ℤ),
        some (result.enrichedProducts.length : ℤ),
        some ((buildTasks result.enrichedProducts).length : ℤ), some container.outputPath, none))
  /-- The use case has raised, the job is failed with the text of the exception, and the files are
  as they were. -/
  | failed {exc : PyError} (huse : env.useCase = .error exc)
      (hfiles : ∀ n, (filesOf w').read n = (filesOf w).read n)
      (hstatus : row.status = .failed)
      (hresult : row.resultFields = (none, none, none, none, some exc.text))

end Rows

namespace Executor

variable {U : Type} {container : Container U} {env : ExecEnv} {w : ExecWorld} {job : PipelineJob}

theorem finalRow_completed (job : PipelineJob) {result : PipelineResultDTO}
    (huse : env.useCase = .ok result) :
    (finalRow env job).status = .completed ∧
      (finalRow env job).resultFields = (some (result.collectionResult.collectedCount : ℤ),
        some (result.enrichedProducts.length : ℤ), some (result.crmTasks.length : ℤ),
        result.outputPath, job.errorMessage) := by
  simp [finalRow, settledJob, finishJob, runUseCase, huse, startJob, PipelineJob.overwrite,
    PipelineJob.resultFields]

theorem finalRow_failed (job : PipelineJob) {exc : PyError} (huse : env.useCase = .error exc)
    (hexc : exc.isException = true) :
    (finalRow env job).status = .failed ∧
      (finalRow env job).resultFields = (job.collectedCount, job.classifiedCount,
        job.crmTasksCount, job.outputPath, some exc.text) := by
  simp [finalRow, settledJob, finishJob, runUseCase, huse, hexc, startJob, PipelineJob.overwrite,
    PipelineJob.resultFields]

/-- **The row of a job and the file of its products agree**: after an execution of a new job, either
the job is completed with its counts and the path of a file that reads as exactly the collection and
the enriched products that the use case has returned, or it is failed with the text of the exception
and no file has changed. -/
theorem executes_with_output {fuel : ℕ} {pw pw' : PipelineWorld (OutputWorld U)}
    (hexec : ExecutedWith env container job fuel pw pw')
    (hget : w.repository.get job.id = some job)
    (hnew : job.resultFields = (none, none, none, none, none))
    (hpages : ∀ page batch, container.fetchPage page = .batch batch → ∀ p ∈ batch, p.Valid)
    (htarget : (Nat.toDigits 10 (container.targetFor job).natAbs).length ≤ 4300)
    (hsize : 1 ≤ container.classifier.settings.llmBatchSize)
    (hgateway : ∀ task, RaisesExceptions (container.createTask task)) :
    ∃ row, (worldAfter ((executePipelineJob env job.id).run w)).repository.get job.id = some row ∧
      RowAndFile env container job fuel pw pw' row := by
  obtain ⟨program, hprogram, huse, rfl⟩ := hexec.useCase
  refine ⟨finalRow env job,
    get_after_of_container_ok hget hexec.runningUpdate hexec.built hexec.finalUpdate, ?_⟩
  have hcollects : (collect container.fetchPage container.ozonHttp (container.targetFor job)
      fuel).map (fun c => liftResult c.outcome >>=
        (container.runPipelineUseCase job).afterCollect) = some program := by
    rw [← hprogram]
    unfold execute
    show _ = (Option.map _ (collect container.fetchPage container.ozonHttp
      (container.targetFor job) fuel)).map _
    rw [Option.map_map]
    rfl
  obtain ⟨c, hcollect, rfl⟩ := Option.map_eq_some_iff.mp hcollects
  simp only [PipelineJob.resultFields, Prod.mk.injEq] at hnew
  obtain ⟨hcollected, hclassified, htasks, hpath, hmessage⟩ := hnew
  cases houtcome : c.outcome with
  | error exc =>
    have hexc := isException_of_collect hcollect houtcome
    rw [houtcome] at huse
    obtain ⟨hstatus, hresult⟩ := finalRow_failed job huse hexc
    rw [hcollected, hclassified, htasks, hpath] at hresult
    exact .failed huse (fun n => rfl) hstatus hresult
  | ok collection =>
    obtain ⟨hnodup, hvalid, hcount⟩ := valid_collection hcollect houtcome hpages htarget
    have hrun : (liftResult (.ok collection) >>=
        (container.runPipelineUseCase job).afterCollect).run pw =
        ((container.runPipelineUseCase job).afterCollect collection).run pw := rfl
    rw [houtcome, hrun] at huse
    rw [hrun]
    obtain ⟨enriched, posts, hclassify, hproducts⟩ := run_classify_toProduct container.classifier
      container.endpoint hsize hnodup pw.llmPosts
    rcases afterCollect_of_classified hvalid hclassify hproducts with
      ⟨exc, w', hraised, ⟨task, u, u', htask⟩, hfiles⟩ |
        ⟨outcomes, w', hreturned, hlength, hread, hothers⟩
    · rw [hraised] at huse ⊢
      obtain ⟨hstatus, hresult⟩ := finalRow_failed job huse (hgateway task u exc u' htask)
      rw [hcollected, hclassified, htasks, hpath] at hresult
      exact .failed huse (fun n => congrArg (fun files => Files.read files n) hfiles) hstatus
        hresult
    · rw [hreturned] at huse ⊢
      obtain ⟨hstatus, hresult⟩ := finalRow_completed job huse
      rw [hmessage, hcount, hlength] at hresult
      exact .completed huse hcollect houtcome hclassify hproducts hread hothers hstatus hresult

/-! ### A run with a broken catalog -/

/-- A container with `MOCK_CRM`, whose catalog ends with a page that cannot be fetched. -/
def brokenContainer : Container (CrmWorld (Str → Option IdempotencyRecord)) where
  fetchPage := brokenCatalog
  ozonHttp := true
  classifier := pairClassifier
  endpoint := timeoutEndpoint
  createTask task := mockGateway.createTask (AmoCrmGateway.pagedAccount fun _ =>
    AmoCrmGateway.returned []) task
  outputDir := "data".toList
  collectionTarget := 10

/-- Nothing has been done yet. -/
def brokenStart : PipelineWorld (OutputWorld (CrmWorld (Str → Option IdempotencyRecord))) :=
  ⟨[], AmoCrmGateway.accountOf [], AtomicWrite.oldFile⟩

/-- The use case of the job. -/
def brokenProgram : EStateM PyError
    (PipelineWorld (OutputWorld (CrmWorld (Str → Option IdempotencyRecord)))) PipelineResultDTO :=
  ((brokenContainer.runPipelineUseCase submittedJob).execute 3).get rfl

/-- The execution of the job. -/
def brokenEnv : ExecEnv := { smoothEnv with useCase := outcomeOf (brokenProgram.run brokenStart) }

theorem valid_phone (sku : Str) : (phone sku).Valid where
  price := ⟨⟨false, 10000, 0, by norm_num, by norm_num⟩, by norm_num [FiniteFloat.magnitude, phone]⟩
  nonneg := by norm_num [phone]
  collectedAt := ⟨le_rfl, by norm_num [phone]⟩

theorem valid_brokenCatalog (page : ℕ) (batch : List Product)
    (h : brokenCatalog page = .batch batch) : ∀ p ∈ batch, p.Valid := by
  unfold brokenCatalog at h
  split at h
  · cases h
    simp [valid_phone]
  · cases h
    simp [valid_phone]
  · cases h

theorem executes_with_output_brokenCatalog :
    ∃ row, (worldAfter ((executePipelineJob brokenEnv submittedJob.id).run
        workerWorld)).repository.get submittedJob.id = some row ∧
      RowAndFile brokenEnv brokenContainer submittedJob 3 brokenStart
        (worldAfter (brokenProgram.run brokenStart)) row :=
  have hexec : ExecutedWith brokenEnv brokenContainer submittedJob 3 brokenStart
      (worldAfter (brokenProgram.run brokenStart)) :=
    ⟨rfl, rfl, rfl, brokenProgram, (Option.some_get _).symm, rfl, rfl⟩
  executes_with_output hexec rfl rfl valid_brokenCatalog (by decide) (by decide)
    fun task w exc w' hrun => by
      obtain ⟨outcome, v, hreturns⟩ := AmoCrmGateway.createTask_returns_of_mock mockGateway
        (AmoCrmGateway.pagedAccount fun _ => AmoCrmGateway.returned []) rfl task w
      rw [show (brokenContainer.createTask task).run w = _ from hreturns] at hrun
      cases hrun

end Executor

end MarketplacePipeline
