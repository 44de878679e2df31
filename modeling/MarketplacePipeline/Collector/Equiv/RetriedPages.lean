import MarketplacePipeline.Collector.Equiv.CatalogRun

/-!
# Pages that are fetched after retries

A page is `Served` if the network answers one of the attempts of its call after failures only, and
`Lost` if all of them fail.  Failures before an answer make no difference to what is collected
(`retries_invisible`), and a lost page ends the collection with what the pages before it brought
(`keeps_pages_before_loss`).
-/

namespace MarketplacePipeline.OzonCatalogCollector

open OzonHttpClient InTurn

variable {settings : Settings} {env : Env} {s : State} {target : ℤ} {fuel : ℕ}

/-- The call goes on after an attempt with this outcome. -/
def Retried (settings : Settings) (outcome : AttemptOutcome) : Prop :=
  outcome.Failed settings.lower ∧ outcome.isUnhandled = false

/-- A call whose attempts begin with number `start` gets a page with these products after
`retries` failures. -/
structure Served (settings : Settings) (env : Env) (start retries : ℕ) (products : List Product) :
    Prop where
  retries_lt : retries < settings.attempts
  waits : ∀ attempt ≤ retries, settings.waitError attempt = none
  failed : ∀ j < retries, Retried settings (env.network (start + j)).outcome
  answered : ∃ payload found, (env.network (start + retries)).outcome.payload? = some payload ∧
    parseProducts env.float env.httpUrl payload (env.now (start + (retries + 1))) = .ok found ∧
    products = sliceTo found settings.ozonPageSize

/-- All attempts of a call fail. -/
structure Lost (settings : Settings) (env : Env) (start : ℕ) : Prop where
  waits : ∀ attempt < settings.attempts, settings.waitError attempt = none
  failed : ∀ j < settings.attempts, Retried settings (env.network (start + j)).outcome

/-- The number of the first attempt for page `n + 1`, if every page before it took
`retries page + 1` attempts. -/
def firstAttempt (s : State) (retries : ℕ → ℕ) (n : ℕ) : ℕ :=
  s.tried.length + ((pagesTo n).map fun page => retries page + 1).sum

theorem firstAttempt_succ (s : State) (retries : ℕ → ℕ) (n : ℕ) :
    firstAttempt s retries (n + 1) = firstAttempt s retries n + (retries (n + 1) + 1) := by
  unfold firstAttempt
  rw [pagesTo_succ, List.map_append, List.sum_append, List.map_singleton, List.sum_singleton,
    Nat.add_assoc]

/-! ### One page -/

theorem handled_of_payload {outcome : AttemptOutcome} {payload : Json}
    (h : outcome.payload? = some payload) : outcome.isUnhandled = false := by
  unfold AttemptOutcome.payload? at h
  split at h
  · rfl
  · cases h

theorem fetchPage_of_served {retries : ℕ} {products : List Product}
    (h : Served settings env s.tried.length retries products) (page : ℕ) :
    (fetchPage settings env page s).1 = .ok products ∧
      (fetchPage settings env page s).2.tried.length = s.tried.length + (retries + 1) := by
  obtain ⟨payload, found, hpayload, hparsed, rfl⟩ := h.answered
  have hbefore : ∀ j < retries, (outcomesFrom env.network s j).Failed settings.lower :=
    fun j hj => (h.failed j hj).1
  have hhandled : Handled settings.toConfig (outcomesFrom env.network s) settings.attempts 0 := by
    intro i hi hfailures
    rw [Nat.zero_add]
    rcases Nat.lt_trichotomy i retries with hlt | rfl | hgt
    · exact ⟨h.waits i hlt.le, (h.failed i hlt).2⟩
    · exact ⟨h.waits i le_rfl, handled_of_payload hpayload⟩
    · -- the attempt with the payload did not fail
      have hnone := (hfailures retries hgt).1
      unfold outcomesFrom at hnone
      rw [hpayload] at hnone
      cases hnone
  obtain ⟨made, hspec⟩ := composerLoop_spec (pageUrl settings.ozonCategoryPath page)
    "unknown".toList hhandled
  obtain ⟨rfl, hresult⟩ := hspec.returns retries payload h.retries_lt hbefore hpayload
  have htried : (getComposerJson settings.toConfig env.network
      (pageUrl settings.ozonCategoryPath page) s).2.tried.length =
      s.tried.length + (retries + 1) := by
    unfold getComposerJson
    rw [hspec.tried, List.length_append, List.length_map, List.length_range]
  refine ⟨?_, by rw [fetchPage_snd, htried]⟩
  unfold fetchPage
  rcases hcall : getComposerJson settings.toConfig env.network
    (pageUrl settings.ozonCategoryPath page) s with ⟨result, s'⟩
  unfold getComposerJson at hcall
  rw [hcall] at hresult
  rw [getComposerJson, hcall] at htried
  obtain rfl : result = .ok payload := hresult
  dsimp only at htried ⊢
  rw [htried, hparsed]
  rfl

theorem fetchPage_of_lost (h : Lost settings env s.tried.length) (page : ℕ) :
    ∃ detail, (fetchPage settings env page s).1 =
      .error (ComposerError.antiBot 403 detail).toPyError := by
  have hhandled : Handled settings.toConfig (outcomesFrom env.network s) settings.attempts 0 := by
    intro i hi _
    rw [Nat.zero_add]
    exact ⟨h.waits i hi, (h.failed i hi).2⟩
  obtain ⟨made, hspec⟩ := composerLoop_spec (pageUrl settings.ozonCategoryPath page)
    "unknown".toList hhandled
  obtain ⟨detail, hdetail⟩ := hspec.antiBot_iff.mpr fun i hi => (h.failed i hi).1
  refine ⟨detail, ?_⟩
  unfold fetchPage getComposerJson
  rcases hcall : composerLoop settings.toConfig env.network
    (pageUrl settings.ozonCategoryPath page) settings.attempts 0 "unknown".toList s with
    ⟨result, s'⟩
  rw [hcall] at hdetail
  obtain rfl : result = .error (.antiBot 403 detail) := hdetail
  rfl

/-! ### The pages of a run -/

section Pages

variable {retries : ℕ → ℕ} {pages : ℕ → List Product} {last : ℕ}

theorem tried_after_served (h : ∀ n < last, Served settings env (firstAttempt s retries n)
    (retries (n + 1)) (pages (n + 1))) {n : ℕ} (hn : n ≤ last) :
    (after (fetchPage settings env) s n).tried.length = firstAttempt s retries n := by
  -- each page uses up the attempts that fail for it and the one that is answered
  induction n with
  | zero => rfl
  | succ n ih =>
    have hstart := ih (by omega)
    have hserved := h n (by omega)
    rw [← hstart] at hserved
    rw [firstAttempt_succ, ← hstart]
    exact (fetchPage_of_served hserved (n + 1)).2

theorem pageOutcome_of_served (h : ∀ n < last, Served settings env (firstAttempt s retries n)
    (retries (n + 1)) (pages (n + 1))) {page : ℕ} (hone : 1 ≤ page) (hpage : page ≤ last) :
    pageOutcome (fetchPage settings env) s page = .batch (pages page) := by
  obtain ⟨n, rfl⟩ := Nat.exists_eq_add_of_le' hone
  have hserved := h n (by omega)
  rw [← tried_after_served h (by omega)] at hserved
  have hfetch := (fetchPage_of_served hserved (n + 1)).1
  unfold pageOutcome answer
  rw [Nat.add_sub_cancel, hfetch]
  rfl

theorem collectLoop_congr {f g : ℕ → FetchOutcome} {page : ℕ} (h : ∀ p, page ≤ p → f p = g p)
    (products : List Product) (seenIds : Finset Str) (requested : List ℕ) :
    collectLoop f target fuel page products seenIds requested =
      collectLoop g target fuel page products seenIds requested := by
  -- the loop never goes back to an earlier page
  induction fuel generalizing page products seenIds requested with
  | zero =>
    unfold collectLoop
    rfl
  | succ fuel ih =>
    have hrest : ∀ p, page + 1 ≤ p → f p = g p := fun p hp => h p (by omega)
    unfold collectLoop
    rw [h page le_rfl]
    split_ifs
    · cases g page with
      | quotaExhausted text | failed text => rfl
      | batch batch =>
        cases batch with
        | nil => rfl
        | cons product batch => exact ih hrest _ _ _
    · rfl

end Pages

/-! ### A page that fails -/

section Failed

variable {fetchPage : ℕ → FetchOutcome} {exit : LoopExit} {n m : ℕ} {text : Str}

/-- A loop that can go on to a page that fails ends there. -/
theorem ExitAt.eq_of_failed (h : ExitAt fetchPage target exit m)
    (hgo : GoesOn fetchPage target n) (hfailed : fetchPage (n + 1) = .failed text) :
    exit = .finished (distinct (fetched fetchPage n)) true (some text) ∧ m = n + 1 := by
  have hnot : ¬ GoesOn fetchPage target (n + 1) := by
    intro hnext
    obtain ⟨batch, hbatch, -⟩ := hnext.2 (n + 1) (by omega) le_rfl
    rw [hfailed] at hbatch
    cases hbatch
  -- the loop has gone on to the page, and not beyond it
  obtain rfl : m = n + 1 := by
    rw [h.goesOn_iff] at hgo hnot
    omega
  cases h with
  | reached _ _ hbatches =>
    obtain ⟨batch, hbatch⟩ := hbatches (n + 1) (by omega) le_rfl
    rw [hfailed] at hbatch
    cases hbatch
  | empty _ hpage | quotaExhausted _ hpage =>
    rw [hfailed] at hpage
    cases hpage
  | failed _ hpage =>
    rw [hfailed] at hpage
    cases hpage
    exact ⟨rfl, rfl⟩

end Failed

/-- **Retries are invisible**: if the network answers every page after fewer failures than the call
has attempts, and the call goes on after each of them, then what is collected is what a network
without failures gives, however the failures are spread over the pages and the proxies. -/
theorem retries_invisible (henv : env.RaisesExceptions) {retries : ℕ → ℕ}
    {pages : ℕ → List Product}
    (h : ∀ n, Served settings env (firstAttempt s retries n) (retries (n + 1)) (pages (n + 1)))
    (target : ℤ) (fuel : ℕ) :
    (collectRun settings env target fuel s).map Prod.fst =
      collect (fun page => .batch (pages page)) true target fuel := by
  have hpages : ∀ page, 1 ≤ page →
      pageOutcome (fetchPage settings env) s page = .batch (pages page) :=
    fun page hone => pageOutcome_of_served (fun n _ => h n) hone le_rfl
  rw [collectRun_eq henv, Option.map_map]
  unfold collect
  rw [collectLoop_congr hpages]
  cases collectLoop (fun page => .batch (pages page)) target fuel 1 [] ∅ [] with
  | none => rfl
  | some result =>
    obtain ⟨exit, requested⟩ := result
    cases exit <;> rfl

/-- Every other attempt is answered: the first page has a phone, the others have nothing. -/
def flaky (i : ℕ) : Attempt :=
  if i % 2 = 0 then unavailable else answeredWith (if i = 1 then phoneTile else ['x'])

theorem flaky_raisesExceptions : (envOf flaky).RaisesExceptions where
  otherError i exc stage h := by
    unfold envOf flaky at h
    dsimp only at h
    split_ifs at h <;> cases h
  json i status text exc h := by
    unfold envOf flaky at h
    dsimp only at h
    split_ifs at h <;> cases h
  httpUrl url := onlyExceptions_ok url

theorem served_flaky (n : ℕ) : Served twoAttempts (envOf flaky)
    (firstAttempt {} (fun _ => 1) n) 1 (if n = 0 then [tilePhone] else []) := by
  have hstart : firstAttempt {} (fun _ => 1) n = 2 * n := by
    induction n with
    | zero => rfl
    | succ n ih => rw [firstAttempt_succ, ih, Nat.mul_succ]
  rw [hstart]
  refine ⟨by decide +kernel, by decide +kernel, fun j hj => ?_, ?_⟩
  · obtain rfl : j = 0 := by omega
    have hfailed : flaky (2 * n) = unavailable := by simp [flaky]
    show Retried twoAttempts (flaky (2 * n)).outcome
    rw [hfailed]
    exact ⟨⟨rfl, rfl⟩, rfl⟩
  · cases n with
    | zero => exact ⟨pageOf phoneTile, [tilePhone], rfl, by decide +kernel, rfl⟩
    | succ n =>
      have hanswered : flaky (2 * (n + 1) + 1) = answeredWith ['x'] := by
        unfold flaky
        rw [if_neg (by omega), if_neg (by omega)]
      refine ⟨pageOf ['x'], [], ?_, rfl, rfl⟩
      show (flaky (2 * (n + 1) + 1)).outcome.payload? = some _
      rw [hanswered]
      rfl

theorem retries_invisible_flaky :
    (collectRun twoAttempts (envOf flaky) 5 2 {}).map Prod.fst =
      collect (fun page => .batch (if page = 1 then [tilePhone] else [])) true 5 2 :=
  retries_invisible flaky_raisesExceptions (fun n => by simpa using served_flaky n) 5 2

/-- **A lost page costs only what comes after it**: if the pages before it are served, have products
and do not reach the target, then the collection ends there, degraded, with all distinct products of
these pages. -/
theorem keeps_pages_before_loss (henv : env.RaisesExceptions) {retries : ℕ → ℕ}
    {pages : ℕ → List Product} {last : ℕ}
    (hserved : ∀ n < last,
      Served settings env (firstAttempt s retries n) (retries (n + 1)) (pages (n + 1)))
    (hlost : Lost settings env (firstAttempt s retries last))
    (hproducts : ∀ n < last, pages (n + 1) ≠ [])
    (hshort : ((distinct ((pagesTo last).flatMap pages)).length : ℤ) < target) :
    ∃ c s' r, collectRun settings env target (last + 1) s = some (c, s') ∧
      c.requested = pagesTo (last + 1) ∧ c.outcome = .ok r ∧
      r.products = distinct ((pagesTo last).flatMap pages) ∧ r.degraded = true ∧
      r.exhausted = false ∧
      ∃ detail, r.errorMessage = some (ComposerError.antiBot 403 detail).toPyError.text := by
  have hpages : ∀ page, 1 ≤ page → page ≤ last →
      pageOutcome (fetchPage settings env) s page = .batch (pages page) :=
    fun page hone hpage => pageOutcome_of_served hserved hone hpage
  have hfetched : fetched (pageOutcome (fetchPage settings env) s) last =
      (pagesTo last).flatMap pages := by
    apply List.flatMap_congr
    intro page hpage
    rw [batchAt, hpages page (mem_pagesTo.mp hpage).1 (mem_pagesTo.mp hpage).2]
  have hgo : GoesOn (pageOutcome (fetchPage settings env) s) target last := by
    refine ⟨hfetched ▸ hshort, fun page hone hpage => ⟨_, hpages page hone hpage, ?_⟩⟩
    obtain ⟨n, rfl⟩ := Nat.exists_eq_add_of_le' hone
    exact hproducts n (by omega)
  -- the lost page is the first one that the loop cannot pass
  rw [← tried_after_served hserved le_rfl] at hlost
  obtain ⟨detail, hdetail⟩ := fetchPage_of_lost hlost (last + 1)
  have hfailed : pageOutcome (fetchPage settings env) s (last + 1) =
      .failed (ComposerError.antiBot 403 detail).toPyError.text := by
    unfold pageOutcome answer
    rw [Nat.add_sub_cancel, hdetail]
    rfl
  cases hcollect : collect (pageOutcome (fetchPage settings env) s) true target (last + 1) with
  | none =>
    obtain ⟨batch, hbatch, -⟩ := (collect_none hcollect).2 (last + 1) (by omega) le_rfl
    rw [hfailed] at hbatch
    cases hbatch
  | some c =>
    obtain ⟨exit, m, hexit, hrequested, houtcome⟩ := collect_exit hcollect
    obtain ⟨rfl, rfl⟩ := hexit.eq_of_failed hgo hfailed
    refine ⟨c, _, _, by rw [collectRun_eq henv, hcollect]; rfl, hrequested, houtcome, ?_, rfl, ?_,
      detail, rfl⟩
    · rw [← hfetched] at hshort ⊢
      exact sliceTo_of_length_lt hshort
    · simp [buildResult]

theorem keeps_pages_before_loss_outage :
    ∃ c s' r, collectRun twoAttempts (envOf outage) 5 2 {} = some (c, s') ∧
      c.requested = pagesTo 2 ∧ c.outcome = .ok r ∧
      r.products = distinct ((pagesTo 1).flatMap fun _ => [tilePhone]) ∧ r.degraded = true ∧
      r.exhausted = false ∧
      ∃ detail, r.errorMessage = some (ComposerError.antiBot 403 detail).toPyError.text := by
  have hserved : ∀ n < 1, Served twoAttempts (envOf outage) (firstAttempt {} (fun _ => 0) n) 0
      [tilePhone] := by
    intro n hn
    obtain rfl : n = 0 := by omega
    exact ⟨by decide +kernel, by decide +kernel, by simp, pageOf phoneTile, [tilePhone],
      rfl, by decide +kernel, rfl⟩
  have hlost : Lost twoAttempts (envOf outage) (firstAttempt {} (fun _ => 0) 1) := by
    refine ⟨by decide +kernel, fun j _ => ?_⟩
    have houtage : outage (1 + j) = unavailable := if_neg (by omega)
    show Retried twoAttempts (outage (1 + j)).outcome
    rw [houtage]
    exact ⟨⟨rfl, rfl⟩, rfl⟩
  exact keeps_pages_before_loss outage_raisesExceptions hserved hlost (by simp) (by decide +kernel)

end MarketplacePipeline.OzonCatalogCollector
