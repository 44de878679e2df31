import MarketplacePipeline.Algorithm.InTurn
import MarketplacePipeline.Collector.CatalogRun
import MarketplacePipeline.Collector.Equiv.OzonCatalogCollector
import MarketplacePipeline.Http.Equiv.ComposerCall

/-!
# Collecting over the client

A collector asks its client for the pages in turn, so that what the client answers is a function of
the page number (`InTurn.answer`), and a run over the client is a run over that function
(`runLoop_eq`).
-/

namespace MarketplacePipeline

namespace OzonHttpClient

/-! ### The requests of a call -/

/-- A call made some attempts, each with at most a warm-up and one composer request. -/
structure CallRecord (pagePath : Str) (made : ℕ) (s s' : State) : Prop where
  tried : s'.tried.length = s.tried.length + made
  sent : ∃ new, s'.sent = s.sent ++ new ∧ (new.map SentRequest.kind).Sublist
    (List.replicate made [.warmup, .composer pagePath]).flatten

section Attempts

variable {cfg : Config} {network : ℕ → Attempt} {pagePath : Str} {proxy : Option Str}
  {fingerprint : SessionFingerprint} {outcome : AttemptOutcome} {a : Attempt} {s s' s'' : State}
  {made made' : ℕ}

theorem CallRecord.trans (h : CallRecord pagePath made s s')
    (h' : CallRecord pagePath made' s' s'') : CallRecord pagePath (made + made') s s'' := by
  obtain ⟨new, hnew, hkinds⟩ := h.sent
  obtain ⟨new', hnew', hkinds'⟩ := h'.sent
  refine ⟨by rw [h'.tried, h.tried, Nat.add_assoc], new ++ new', ?_, ?_⟩
  · rw [hnew', hnew, List.append_assoc]
  · rw [List.map_append, List.replicate_add, List.flatten_append]
    exact hkinds.append hkinds'

theorem clientForProxy_sent : (clientForProxy proxy outcome s).2.sent = s.sent := by
  unfold clientForProxy
  cases s.clients proxy with
  | some client => rfl
  | none => cases outcome.errorAt .client <;> rfl

variable (cfg proxy fingerprint outcome s) in
theorem warmUp_sent (client : ℕ) :
    ∃ new, (warmUp cfg proxy fingerprint client outcome s).2.sent = s.sent ++ new ∧
      (new.map SentRequest.kind).Sublist [.warmup] := by
  unfold warmUp
  split_ifs
  · cases outcome.errorAt .warmup with
    | some exc => exact ⟨[⟨client, .warmup, fingerprint, false⟩], rfl, .refl _⟩
    | none => exact ⟨[⟨client, .warmup, fingerprint, true⟩], rfl, .refl _⟩
  · exact ⟨[], (List.append_nil _).symm, List.nil_sublist _⟩

variable (pagePath fingerprint outcome s) in
theorem composerRequest_sent (client : ℕ) :
    ∃ request, (composerRequest pagePath fingerprint client outcome s).2.sent =
      s.sent ++ [request] ∧ request.kind = .composer pagePath := by
  cases outcome <;> exact ⟨_, rfl, rfl⟩

variable (cfg pagePath proxy fingerprint outcome s) in
theorem fetchOnce_sent :
    ∃ new, (fetchOnce cfg pagePath proxy fingerprint outcome s).2.sent = s.sent ++ new ∧
      (new.map SentRequest.kind).Sublist [.warmup, .composer pagePath] := by
  unfold fetchOnce
  have hclient : (clientForProxy proxy outcome s).2.sent = s.sent := clientForProxy_sent
  rcases hrun : clientForProxy proxy outcome s with ⟨result, s₁⟩
  rw [hrun] at hclient
  cases result with
  | error exc => exact ⟨[], by rw [hclient, List.append_nil], List.nil_sublist _⟩
  | ok client =>
    dsimp only
    obtain ⟨warm, hwarm, hkinds⟩ := warmUp_sent cfg proxy fingerprint outcome s₁ client
    rcases hrun' : warmUp cfg proxy fingerprint client outcome s₁ with ⟨result', s₂⟩
    rw [hrun'] at hwarm
    dsimp only at hwarm hclient
    cases result' with
    | error exc =>
      refine ⟨warm, by rw [hwarm, hclient], hkinds.trans ?_⟩
      exact List.sublist_append_left [RequestKind.warmup] [.composer pagePath]
    | ok _ =>
      dsimp only
      obtain ⟨request, hrequest, hkind⟩ :=
        composerRequest_sent pagePath fingerprint outcome s₂ client
      refine ⟨warm ++ [request], by rw [hrequest, hwarm, hclient, List.append_assoc], ?_⟩
      rw [List.map_append, List.map_singleton, hkind]
      exact hkinds.append (.refl _)

variable (cfg pagePath a s) in
theorem callRecord_runAttempt : CallRecord pagePath 1 s (runAttempt cfg pagePath a s).2 := by
  refine ⟨?_, ?_⟩
  · rw [(runAttempt_spec cfg pagePath a s).2.1, nextProxy_tried, List.length_append]
    rfl
  · unfold runAttempt
    have hturn : (nextProxy cfg s).2.sent = s.sent := by
      unfold nextProxy
      split_ifs <;> rfl
    rcases hnext : nextProxy cfg s with ⟨proxy, s₁⟩
    rw [hnext] at hturn
    have hprint : (fingerprintForProxy cfg proxy a s₁).2.sent = s₁.sent := by
      unfold fingerprintForProxy
      cases s₁.fingerprints proxy <;> rfl
    rcases hchoice : fingerprintForProxy cfg proxy a s₁ with ⟨fingerprint, s₂⟩
    obtain ⟨new, hnew, hkinds⟩ := fetchOnce_sent cfg pagePath proxy fingerprint a.outcome s₂
    rcases hfetch : fetchOnce cfg pagePath proxy fingerprint a.outcome s₂ with ⟨result, s₃⟩
    rw [hchoice] at hprint
    rw [hfetch] at hnew
    dsimp only at hturn hprint hnew
    refine ⟨new, ?_, by simpa using hkinds⟩
    simp only [hchoice, hfetch]
    -- `_drop_client` sends nothing
    have hsent : s₃.sent = s.sent ++ new := by rw [hnew, hprint, hturn]
    split <;> exact hsent

variable (cfg network pagePath) in
/-- The attempts of a loop; there is at least one if the loop starts with attempt 0. -/
theorem exists_callRecord_composerLoop (more : ℕ) (attempt : ℕ) (lastError : Str) (s : State) :
    ∃ made, CallRecord pagePath made s
        (composerLoop cfg network pagePath more attempt lastError s).2 ∧ made ≤ more ∧
      (attempt = 0 → 0 < more → 1 ≤ made) := by
  induction more generalizing attempt lastError s with
  | zero => exact ⟨0, ⟨rfl, [], by simp [composerLoop], by simp⟩, le_rfl, by omega⟩
  | succ more ih =>
    unfold composerLoop
    cases hwait : cfg.waitError attempt with
    | some exc =>
      refine ⟨0, ⟨rfl, [], by simp, by simp⟩, by omega, fun hzero _ => ?_⟩
      rw [hzero] at hwait
      cases hwait
    | none =>
      have hattempt := callRecord_runAttempt cfg pagePath (network s.tried.length) s
      dsimp only
      rcases hrun : runAttempt cfg pagePath (network s.tried.length) s with ⟨ended, s'⟩
      rw [hrun] at hattempt
      cases ended with
      | returned payload => exact ⟨1, hattempt, by omega, fun _ _ => le_rfl⟩
      | raised exc => exact ⟨1, hattempt, by omega, fun _ _ => le_rfl⟩
      | failed error =>
        obtain ⟨made, hrest, hle, -⟩ := ih (attempt + 1) error s'
        exact ⟨1 + made, hattempt.trans hrest, by omega, fun _ _ => by omega⟩

theorem Config.attempts_pos (cfg : Config) : 0 < cfg.attempts := by
  unfold Config.attempts
  have hretries : 0 < (max 1 cfg.maxRetries).toNat := by omega
  exact Nat.mul_pos hretries (by omega)

variable (cfg network pagePath s) in
theorem exists_callRecord : ∃ made, CallRecord pagePath made s
    (getComposerJson cfg network pagePath s).2 ∧ 1 ≤ made ∧ made ≤ cfg.attempts := by
  obtain ⟨made, hrecord, hle, hpos⟩ :=
    exists_callRecord_composerLoop cfg network pagePath cfg.attempts 0 "unknown".toList s
  exact ⟨made, hrecord, hpos rfl cfg.attempts_pos, hle⟩

end Attempts

end OzonHttpClient

namespace OzonCatalogCollector

open OzonHttpClient InTurn

/-! ### A run over a function of the page number -/

/-- What the loop of `collect` makes of what `_fetch_page` returned or raised. -/
def toOutcome : Except PyError (List Product) → FetchOutcome
  | .ok products => .batch products
  | .error exc =>
    if exc.kind = .proxyQuotaExhausted then .quotaExhausted exc.text else .failed exc.text

section Loop

variable {σ : Type} {fetch : ℕ → σ → Except PyError (List Product) × σ} {target : ℤ} {s : σ}

/-- What the pages are for a loop that asks for them in turn. -/
def pageOutcome (fetch : ℕ → σ → Except PyError (List Product) × σ) (s : σ) (page : ℕ) :
    FetchOutcome := toOutcome (answer fetch s page)

theorem runLoop_eq (hexc : ∀ n s, OnlyExceptions (fetch n s).1) (fuel n : ℕ)
    (products : List Product) (seenIds : Finset Str) (requested : List ℕ)
    (hrequested : requested.length = n) :
    runLoop fetch target fuel (n + 1) products seenIds requested (after fetch s n) =
      (collectLoop (pageOutcome fetch s) target fuel (n + 1) products seenIds requested).map
        fun result => (result, after fetch s result.2.length) := by
  -- both loops stand before page `n + 1`, and the client has made the calls for the pages before it
  induction fuel generalizing n products seenIds requested with
  | zero =>
    unfold runLoop collectLoop
    split_ifs
    · rfl
    · simp [hrequested]
  | succ fuel ih =>
    unfold runLoop collectLoop
    split_ifs
    · have hlength : (requested ++ [n + 1]).length = n + 1 := by simp [hrequested]
      have houtcome := forall_answer (s := s) hexc (n + 1)
      rw [serve_after fetch s n, pageOutcome]
      cases hanswer : answer fetch s (n + 1) with
      | error exc =>
        have hcaught : exc.isException = true := houtcome exc hanswer
        by_cases hkind : exc.kind = .proxyQuotaExhausted
        · obtain ⟨kind, text⟩ := exc
          obtain rfl := hkind
          simp [toOutcome, hlength]
        · simp [toOutcome, hkind, hcaught, hlength]
      | ok batch =>
        cases batch with
        | nil => simp [toOutcome, hlength]
        | cons product batch => exact ih (n + 1) _ _ _ hlength
    · simp [hrequested]

end Loop

/-! ### What can be raised -/

/-- Nothing but `Exception`s comes from outside. -/
structure Env.RaisesExceptions (env : Env) : Prop where
  otherError : ∀ i exc stage, (env.network i).outcome = .otherError exc stage →
    exc.isException = true
  json : ∀ i status text exc, (env.network i).outcome = .answered status text (.error exc) →
    exc.isException = true
  httpUrl : ∀ url, OnlyExceptions (env.httpUrl url)

section Raised

variable {float : Str → ℚ} {httpUrl : Str → Except PyError Str}

theorem onlyExceptions_productsOfBlocks (hurl : ∀ url, OnlyExceptions (httpUrl url))
    (collectedAt : Timestamp) (blocks : List (List Str)) :
    OnlyExceptions (productsOfBlocks float httpUrl collectedAt blocks) := by
  fun_induction productsOfBlocks float httpUrl collectedAt blocks with
  | case1 => exact onlyExceptions_ok []
  | case2 sku title priceRaw skuBlocks hprice ih => exact ih
  | case3 sku title priceRaw skuBlocks price hprice ih =>
    have hproduct : OnlyExceptions (newProduct httpUrl sku title price collectedAt) :=
      (hurl (productUrl sku)).bind fun url => onlyExceptions_ok _
    exact hproduct.bind fun product => ih.bind fun products => onlyExceptions_ok _
  | case4 => exact onlyExceptions_error rfl

theorem onlyExceptions_productsOfStates (hurl : ∀ url, OnlyExceptions (httpUrl url))
    (collectedAt : Timestamp) (states : List Json) :
    OnlyExceptions (productsOfStates float httpUrl collectedAt states) := by
  fun_induction productsOfStates float httpUrl collectedAt states with
  | case1 => exact onlyExceptions_ok []
  | case2 rawState states hskipped ih => exact ih
  | case3 rawState states hread ih =>
    exact (onlyExceptions_productsOfBlocks hurl collectedAt _).bind fun found =>
      ih.bind fun products => onlyExceptions_ok _
  | case4 state states hstate ih => exact ih

variable (float) in
theorem onlyExceptions_parseProducts (hurl : ∀ url, OnlyExceptions (httpUrl url)) (payload : Json)
    (collectedAt : Timestamp) :
    OnlyExceptions (parseProducts float httpUrl payload collectedAt) := by
  unfold parseProducts
  have hget : OnlyExceptions (payload.get "widgetStates".toList .null) := by
    unfold Json.get
    split
    · exact onlyExceptions_ok _
    · exact onlyExceptions_error rfl
  have hvalues : ∀ states, OnlyExceptions (widgetValues states) := by
    intro states
    unfold widgetValues
    split
    · exact onlyExceptions_ok _
    · exact onlyExceptions_error rfl
  exact hget.bind fun _ => (hvalues _).bind fun _ => onlyExceptions_productsOfStates hurl _ _

variable {cfg : Config} {env : Env}

theorem isException_of_attemptEnd (henv : env.RaisesExceptions) {i : ℕ} {exc : ComposerError}
    (h : attemptEnd cfg (env.network i).outcome.result = .raised exc) :
    exc.toPyError.isException = true := by
  unfold attemptEnd at h
  split at h
  · rename_i payload hresult
    split at h
    · rename_i exc' hget
      cases h
      unfold Json.get at hget
      split at hget
      · cases hget
      · cases hget
        rfl
    · split_ifs at h
  · split_ifs at h
    cases h
    rfl
  · split_ifs at h
    cases h
    rfl
  · rename_i exc' hresult
    cases h
    cases houtcome : (env.network i).outcome with
    | answered status text json =>
      rw [houtcome] at hresult
      unfold AttemptOutcome.result checkResponse at hresult
      dsimp only at hresult
      split_ifs at hresult
      · cases json with
        | ok payload => cases hresult
        | error exc =>
          cases hresult
          exact henv.json i status text _ houtcome
      · cases hresult
    | transportError text stage =>
      rw [houtcome] at hresult
      cases hresult
    | otherError exc stage =>
      rw [houtcome] at hresult
      cases hresult
      exact henv.otherError i _ stage houtcome

theorem isException_of_composerLoop (henv : env.RaisesExceptions) {pagePath : Str} {more : ℕ}
    {attempt : ℕ} {lastError : Str} {s : State} {exc : ComposerError}
    (h : (composerLoop cfg env.network pagePath more attempt lastError s).1 = .error exc) :
    exc.toPyError.isException = true := by
  -- an attempt ends the loop with its exception, or the attempts are used up
  induction more generalizing attempt lastError s with
  | zero =>
    cases h
    rfl
  | succ more ih =>
    unfold composerLoop at h
    cases hwait : cfg.waitError attempt with
    | some exc' =>
      rw [hwait] at h
      cases h
      unfold Config.waitError at hwait
      split_ifs at hwait <;> cases hwait <;> rfl
    | none =>
      rw [hwait] at h
      dsimp only at h
      have hspec := (runAttempt_spec cfg pagePath (env.network s.tried.length) s).1
      rcases hrun : runAttempt cfg pagePath (env.network s.tried.length) s with ⟨ended, s'⟩
      rw [hrun] at h hspec
      cases ended with
      | returned payload => cases h
      | raised exc' =>
        cases h
        exact isException_of_attemptEnd henv hspec.symm
      | failed error => exact ih h

theorem onlyExceptions_fetchPage (settings : Settings) (henv : env.RaisesExceptions) (page : ℕ)
    (s : State) : OnlyExceptions (fetchPage settings env page s).1 := by
  unfold fetchPage
  have hraised : ∀ exc, (getComposerJson settings.toConfig env.network
      (pageUrl settings.ozonCategoryPath page) s).1 = .error exc →
      exc.toPyError.isException = true := fun exc h => isException_of_composerLoop henv h
  rcases hcall : getComposerJson settings.toConfig env.network
    (pageUrl settings.ozonCategoryPath page) s with ⟨result, s'⟩
  rw [hcall] at hraised
  cases result with
  | error exc => exact onlyExceptions_error (hraised exc rfl)
  | ok payload =>
    have hparse := onlyExceptions_parseProducts env.float henv.httpUrl payload
      (env.now s'.tried.length)
    dsimp only
    cases hproducts : parseProducts env.float env.httpUrl payload (env.now s'.tried.length) with
    | error exc => exact onlyExceptions_error (hparse exc hproducts)
    | ok products => exact onlyExceptions_ok _

end Raised

/-! ### The pages of a run -/

/-- Different pages have different URLs. -/
theorem pageUrl_injOn (categoryPath : Str) {page page' : ℕ} (hpage : 1 ≤ page) (hpage' : 1 ≤ page')
    (h : pageUrl categoryPath page = pageUrl categoryPath page') : page = page' := by
  have hdigits : ∀ page, 1 ≤ page → pageUrl categoryPath page =
      categoryPath.rdropWhile (· = '/') ++
        if page = 1 then "/".toList else "/?page=".toList ++ Nat.toDigits 10 page := by
    intro page hpage
    unfold pageUrl
    by_cases hone : page = 1
    · simp [hone]
    · simp [hone, show ¬ page ≤ 1 by omega]
  rw [hdigits page hpage, hdigits page' hpage', List.append_cancel_left_eq] at h
  split_ifs at h with hone hone' hone'
  · omega
  · simp at h
  · simp at h
  · rw [List.append_cancel_left_eq] at h
    rw [← Nat.ofDigitChars_ten_toDigits (n := page), h, Nat.ofDigitChars_ten_toDigits]

/-- What a run did to its client: it asked for its pages one after another, each with 1 to
`attempts` attempts of at most two requests, and closed it. -/
structure FetchedInTurn (settings : Settings) (requested : List ℕ) (s s' : State) : Prop where
  inTurn : ∃ n, requested = pagesTo n
  urls_nodup : (requested.map (pageUrl settings.ozonCategoryPath)).Nodup
  fetched : ∃ made : ℕ → ℕ, (∀ page, 1 ≤ made page ∧ made page ≤ settings.attempts) ∧
    s'.tried.length = s.tried.length + (requested.map made).sum ∧
    ∃ new, s'.sent = s.sent ++ new ∧ (new.map SentRequest.kind).Sublist
      (requested.flatMap fun page => (List.replicate (made page)
        [.warmup, .composer (pageUrl settings.ozonCategoryPath page)]).flatten)
  closed : s'.clients = (fun _ => none) ∧ s'.warmedProxies = ∅ ∧ s'.fingerprints = fun _ => none

section Runs

variable {settings : Settings} {env : Env} {target : ℤ} {fuel : ℕ} {s s' : State} {c : Collection}

theorem fetchPage_snd (settings : Settings) (env : Env) (page : ℕ) (s : State) :
    (fetchPage settings env page s).2 = (getComposerJson settings.toConfig env.network
      (pageUrl settings.ozonCategoryPath page) s).2 := by
  unfold fetchPage
  rcases getComposerJson settings.toConfig env.network
    (pageUrl settings.ozonCategoryPath page) s with ⟨result, s'⟩
  cases result <;> rfl

theorem collectRun_eq (henv : env.RaisesExceptions) :
    collectRun settings env target fuel s =
      (collect (pageOutcome (fetchPage settings env) s) true target fuel).map fun c =>
        (c, close (after (fetchPage settings env) s c.requested.length)) := by
  unfold collectRun collect
  have hloop : runLoop (fetchPage settings env) target fuel 1 [] ∅ [] s = _ :=
    runLoop_eq (onlyExceptions_fetchPage settings henv) fuel 0 [] ∅ [] rfl
  rw [hloop]
  rcases collectLoop (pageOutcome (fetchPage settings env) s) target fuel (0 + 1) [] ∅ [] with
    _ | ⟨exit, requested⟩
  · rfl
  · cases exit <;> rfl

/-- The first pages of a run. -/
theorem exists_made (settings : Settings) (env : Env) (s : State) :
    ∃ made : ℕ → ℕ, (∀ page, 1 ≤ made page ∧ made page ≤ settings.attempts) ∧
      ∀ n, (after (fetchPage settings env) s n).tried.length =
          s.tried.length + ((pagesTo n).map made).sum ∧
        ∃ new, (after (fetchPage settings env) s n).sent = s.sent ++ new ∧
          (new.map SentRequest.kind).Sublist ((pagesTo n).flatMap fun page =>
            (List.replicate (made page)
              [.warmup, .composer (pageUrl settings.ozonCategoryPath page)]).flatten) := by
  -- the calls of the pages follow each other, each from the state that the last one left
  choose made hrecord hpos hle using fun page => exists_callRecord settings.toConfig env.network
    (pageUrl settings.ozonCategoryPath page) (after (fetchPage settings env) s (page - 1))
  refine ⟨made, fun page => ⟨hpos page, hle page⟩, fun n => ?_⟩
  induction n with
  | zero => exact ⟨rfl, [], by simp [after], by simp⟩
  | succ n ih =>
    obtain ⟨htried, new, hnew, hkinds⟩ := ih
    have hpage := hrecord (n + 1)
    rw [Nat.add_sub_cancel, ← fetchPage_snd] at hpage
    obtain ⟨added, hadded, hkinds'⟩ := hpage.sent
    rw [pagesTo_succ]
    refine ⟨?_, new ++ added, ?_, ?_⟩
    · rw [List.map_append, List.sum_append, ← Nat.add_assoc, ← htried, List.map_singleton,
        List.sum_singleton]
      exact hpage.tried
    · rw [← List.append_assoc, ← hnew]
      exact hadded
    · rw [List.map_append, List.flatMap_append]
      exact hkinds.append (by simpa using hkinds')

/-- **Collecting over the client** is collecting from a function of the page number, whatever the
network does: a run that ended has the result of `collect` for it.  It has asked for its pages one
after another, each of them at one URL and with at most `attempts` attempts, and has closed the
client. -/
theorem collects_over_client (henv : env.RaisesExceptions)
    (h : collectRun settings env target fuel s = some (c, s')) :
    collect (pageOutcome (fetchPage settings env) s) true target fuel = some c ∧
      FetchedInTurn settings c.requested s s' := by
  rw [collectRun_eq henv, Option.map_eq_some_iff] at h
  obtain ⟨c', hcollect, heq⟩ := h
  obtain ⟨rfl, rfl⟩ := Prod.mk.inj heq
  obtain ⟨-, n, -, hn, -⟩ := collect_exit hcollect
  refine ⟨hcollect, ⟨n, hn⟩, ?_, ?_, rfl, rfl, rfl⟩
  · rw [hn]
    apply List.Nodup.map_on
    · intro page hpage page' hpage' hurl
      exact pageUrl_injOn _ (mem_pagesTo.mp hpage).1 (mem_pagesTo.mp hpage').1 hurl
    · exact List.nodup_range.map (add_left_injective 1)
  · obtain ⟨made, hmade, hpages⟩ := exists_made settings env s
    have hlength : c'.requested.length = n := by
      rw [hn, pagesTo, List.length_map, List.length_range]
    refine ⟨made, hmade, ?_⟩
    rw [hlength, hn]
    exact hpages n

end Runs

/-- The client makes two attempts. -/
def twoAttempts : Settings where
  maxRetries := 2
  firstProfile := htmlAttempt.profile
  lower := id
  ozonCategoryPath := "/category/smartfony-15502/".toList

/-- An attempt that is answered with status 503. -/
def unavailable : Attempt := { htmlAttempt with outcome := .answered 503 [] (.ok .null) }

/-- A page with one widget. -/
def pageOf (rawState : Str) : Json :=
  .dict [("widgetStates".toList, .dict [("tileGridDesktop".toList, .str rawState)])]

/-- An attempt that is answered with such a page. -/
def answeredWith (rawState : Str) : Attempt :=
  { htmlAttempt with outcome := .answered 200 [] (.ok (pageOf rawState)) }

/-- A tile. -/
def phoneTile : Str := "\"sku\":7,\"title\":\"Phone\",\"price\":\"9\"".toList

/-- The product of the tile. -/
def tilePhone : Product where
  id := "7".toList
  name := "Phone".toList
  price := 9
  url := "https://www.ozon.ru/product/7/".toList
  category := categoryName
  collectedAt := 0
  description := "Категория: Смартфоны. Phone".toList

/-- A network, with clocks that stand still. -/
def envOf (network : ℕ → Attempt) : Env where
  network := network
  now _ := 0
  float digits := Nat.ofDigitChars 10 digits 0
  httpUrl := .ok

/-- The first page has a phone, and then nothing is answered. -/
def outage (i : ℕ) : Attempt := if i = 0 then answeredWith phoneTile else unavailable

theorem outage_raisesExceptions : (envOf outage).RaisesExceptions where
  otherError i exc stage h := by
    unfold envOf outage at h
    dsimp only at h
    split_ifs at h <;> cases h
  json i status text exc h := by
    unfold envOf outage at h
    dsimp only at h
    split_ifs at h <;> cases h
  httpUrl url := onlyExceptions_ok url

theorem collects_over_client_outage :
    ∃ c s', collectRun twoAttempts (envOf outage) 5 2 {} = some (c, s') ∧
      collect (pageOutcome (fetchPage twoAttempts (envOf outage)) {}) true 5 2 = some c ∧
      FetchedInTurn twoAttempts c.requested {} s' := by
  have hsome : (collectRun twoAttempts (envOf outage) 5 2 {}).isSome = true := by decide +kernel
  obtain ⟨⟨c, s'⟩, h⟩ := Option.isSome_iff_exists.mp hsome
  exact ⟨c, s', h, collects_over_client outage_raisesExceptions h⟩

end OzonCatalogCollector

end MarketplacePipeline
