import MarketplacePipeline.Http.OzonHttpClient
import Mathlib.Tactic.Common

/-!
# The sessions of a client over its lifetime

A session is an `httpx.Client` under a proxy: it is opened after a fingerprint was chosen for the
proxy, warmed up, used, and dropped together with the fingerprint.  `Sessions` is the invariant that
ties the three dictionaries to each other and to the requests that were sent; an attempt keeps it
wherever it fails (`Sessions.runAttempt`).
-/

namespace MarketplacePipeline.OzonHttpClient

/-- A warm-up through an `httpx.Client` was answered. -/
def WarmedUp (client : ℕ) (sent : List SentRequest) : Prop :=
  ∃ warm ∈ sent, warm.client = client ∧ warm.kind = .warmup ∧ warm.returned = true

/-- What holds after every attempt and every `close()`. -/
structure Consistent (cfg : Config) (s : State) : Prop where
  warmed_subset : ∀ proxy ∈ s.warmedProxies, (s.clients proxy).isSome = true
  clients_subset : ∀ proxy, (s.clients proxy).isSome = true → (s.fingerprints proxy).isSome = true
  same_fingerprint : ∀ r ∈ s.sent, ∀ r' ∈ s.sent, r.client = r'.client →
    r.fingerprint = r'.fingerprint
  warm_first : cfg.warmupSession = true → ∀ pre r post, s.sent = pre ++ r :: post →
    r.kind ≠ .warmup → WarmedUp r.client pre

/-- The invariant of the sessions. -/
structure Sessions (cfg : Config) (s : State) : Prop extends Consistent cfg s where
  client_lt : ∀ proxy client, s.clients proxy = some client → client < s.nextClient
  client_inj : ∀ proxy proxy' client, s.clients proxy = some client →
    s.clients proxy' = some client → proxy = proxy'
  sent_lt : ∀ r ∈ s.sent, r.client < s.nextClient
  /-- The requests of a live session carry the fingerprint of its proxy. -/
  live_fingerprint : ∀ proxy, ∀ r ∈ s.sent, s.clients proxy = some r.client →
    s.fingerprints proxy = some r.fingerprint
  warmed_up : ∀ proxy ∈ s.warmedProxies, ∀ client, s.clients proxy = some client →
    WarmedUp client s.sent

theorem WarmedUp.mono {client : ℕ} {sent sent' : List SentRequest} (h : WarmedUp client sent)
    (hsub : sent ⊆ sent') : WarmedUp client sent' := by
  obtain ⟨warm, hmem, hwarm⟩ := h
  exact ⟨warm, hsub hmem, hwarm⟩

section Steps

variable {cfg : Config} {s : State} {proxy : Option Str} {fingerprint : SessionFingerprint}
  {client : ℕ} {pagePath : Str} {a : Attempt} {outcome : AttemptOutcome}

theorem sessions_start : Sessions cfg {} where
  warmed_subset := by simp
  clients_subset := by simp
  same_fingerprint := by simp
  warm_first := by simp
  client_lt := by simp
  client_inj := by simp
  sent_lt := by simp
  live_fingerprint := by simp
  warmed_up := by simp

theorem Sessions.nextProxy (h : Sessions cfg s) : Sessions cfg (nextProxy cfg s).2 := by
  unfold OzonHttpClient.nextProxy
  split_ifs
  · exact { h with }
  · exact { h with }

variable (proxy a) in
/-- A fingerprint is only chosen for a proxy without a session. -/
theorem Sessions.fingerprintForProxy (h : Sessions cfg s) :
    Sessions cfg (fingerprintForProxy cfg proxy a s).2 ∧
      (fingerprintForProxy cfg proxy a s).2.fingerprints proxy =
        some (fingerprintForProxy cfg proxy a s).1 := by
  unfold OzonHttpClient.fingerprintForProxy
  cases hprint : s.fingerprints proxy with
  | some fingerprint => exact ⟨h, hprint⟩
  | none =>
    -- a session has a fingerprint, so that no session gets another one here
    have hclient : s.clients proxy = none := by
      cases hclient : s.clients proxy with
      | none => rfl
      | some client =>
        have hsome := h.clients_subset proxy (by rw [hclient]; rfl)
        rw [hprint] at hsome
        cases hsome
    refine ⟨{ h with clients_subset := ?clients_subset, live_fingerprint := ?live_fingerprint },
      Function.update_self _ _ _⟩
    case clients_subset =>
      intro proxy' hsome
      dsimp only at hsome ⊢
      by_cases hproxy : proxy' = proxy
      · rw [hproxy, Function.update_self]
        rfl
      · rw [Function.update_of_ne hproxy]
        exact h.clients_subset proxy' hsome
    case live_fingerprint =>
      intro proxy' r hr hlive
      dsimp only at hlive ⊢
      by_cases hproxy : proxy' = proxy
      · rw [hproxy, hclient] at hlive
        cases hlive
      · rw [Function.update_of_ne hproxy]
        exact h.live_fingerprint proxy' r hr hlive

/-- The sessions after that of one proxy was opened or dropped. -/
theorem clients_update_eq_some {proxy' : Option Str} {value : Option ℕ} {client : ℕ}
    (hlive : Function.update s.clients proxy value proxy' = some client) :
    proxy' = proxy ∧ value = some client ∨ proxy' ≠ proxy ∧ s.clients proxy' = some client := by
  by_cases hproxy : proxy' = proxy
  · rw [hproxy, Function.update_self] at hlive
    exact Or.inl ⟨hproxy, hlive⟩
  · rw [Function.update_of_ne hproxy] at hlive
    exact Or.inr ⟨hproxy, hlive⟩

variable (outcome) in
/-- A new session has no requests and is not warm. -/
theorem Sessions.clientForProxy (h : Sessions cfg s)
    (hprint : s.fingerprints proxy = some fingerprint) :
    Sessions cfg (clientForProxy proxy outcome s).2 ∧
      (clientForProxy proxy outcome s).2.fingerprints = s.fingerprints ∧
      ∀ client, (clientForProxy proxy outcome s).1 = .ok client →
        (clientForProxy proxy outcome s).2.clients proxy = some client := by
  unfold OzonHttpClient.clientForProxy
  cases hclient : s.clients proxy with
  | some client =>
    refine ⟨h, rfl, fun client' heq => ?_⟩
    rw [← Except.ok.inj heq]
    exact hclient
  | none =>
    cases outcome.errorAt .client with
    | some exc => exact ⟨h, rfl, fun client heq => by cases heq⟩
    | none =>
      have hcold : ∀ proxy' ∈ s.warmedProxies, proxy' ≠ proxy := by
        rintro proxy' hwarm rfl
        have hsome := h.warmed_subset proxy' hwarm
        rw [hclient] at hsome
        cases hsome
      refine ⟨{ h with
        warmed_subset := ?warmed_subset, clients_subset := ?clients_subset
        client_lt := ?client_lt, client_inj := ?client_inj
        sent_lt := fun r hr => Nat.lt_succ_of_lt (h.sent_lt r hr)
        live_fingerprint := ?live_fingerprint, warmed_up := ?warmed_up }, rfl, ?_⟩
      case warmed_subset =>
        intro proxy' hwarm
        dsimp only at hwarm ⊢
        rw [Function.update_of_ne (hcold proxy' hwarm)]
        exact h.warmed_subset proxy' hwarm
      case clients_subset =>
        intro proxy' hsome
        obtain ⟨client, hlive⟩ := Option.isSome_iff_exists.mp hsome
        rcases clients_update_eq_some hlive with ⟨rfl, -⟩ | ⟨-, hlive⟩
        · dsimp only
          rw [hprint]
          rfl
        · exact h.clients_subset proxy' (by rw [hlive]; rfl)
      case client_lt =>
        intro proxy' client hlive
        dsimp only
        rcases clients_update_eq_some hlive with ⟨-, heq⟩ | ⟨-, hlive⟩
        · have hnew := Option.some.inj heq
          omega
        · have hlt := h.client_lt proxy' client hlive
          omega
      case client_inj =>
        -- the number of the new session is greater than all others
        intro proxy₁ proxy₂ client h₁ h₂
        rcases clients_update_eq_some h₁ with ⟨heq₁, hnew₁⟩ | ⟨-, hlive₁⟩
        · rcases clients_update_eq_some h₂ with ⟨heq₂, -⟩ | ⟨-, hlive₂⟩
          · rw [heq₁, heq₂]
          · have hlt := h.client_lt proxy₂ client hlive₂
            have hnew := Option.some.inj hnew₁
            omega
        · rcases clients_update_eq_some h₂ with ⟨-, hnew₂⟩ | ⟨-, hlive₂⟩
          · have hlt := h.client_lt proxy₁ client hlive₁
            have hnew := Option.some.inj hnew₂
            omega
          · exact h.client_inj proxy₁ proxy₂ client hlive₁ hlive₂
      case live_fingerprint =>
        intro proxy' r hr hlive
        rcases clients_update_eq_some hlive with ⟨-, heq⟩ | ⟨-, hlive⟩
        · have hlt := h.sent_lt r hr
          have hnew := Option.some.inj heq
          omega
        · exact h.live_fingerprint proxy' r hr hlive
      case warmed_up =>
        intro proxy' hwarm client hlive
        rcases clients_update_eq_some hlive with ⟨heq, -⟩ | ⟨-, hlive⟩
        · exact absurd heq (hcold proxy' hwarm)
        · exact h.warmed_up proxy' hwarm client hlive
      · intro client heq
        rw [← Except.ok.inj heq]
        exact Function.update_self _ _ _

/-- A request is sent through the session of a proxy, with its fingerprint. -/
theorem Sessions.send (h : Sessions cfg s) (hclient : s.clients proxy = some client)
    (hprint : s.fingerprints proxy = some fingerprint) {kind : RequestKind} (returned : Bool)
    (hwarm : cfg.warmupSession = true → kind ≠ .warmup → WarmedUp client s.sent) :
    Sessions cfg (send ⟨client, kind, fingerprint, returned⟩ s) := by
  unfold OzonHttpClient.send
  -- the requests of this session so far carry the same fingerprint
  have hlive : ∀ r ∈ s.sent, r.client = client → r.fingerprint = fingerprint := by
    intro r hr heq
    have hsame := h.live_fingerprint proxy r hr (by rw [hclient, heq])
    rw [hprint] at hsame
    exact (Option.some.inj hsame).symm
  refine { h with
    same_fingerprint := ?same_fingerprint, warm_first := ?warm_first, sent_lt := ?sent_lt
    live_fingerprint := ?live_fingerprint, warmed_up := ?warmed_up }
  case same_fingerprint =>
    intro r hr r' hr' heq
    rcases List.mem_append.mp hr with hr | hr
    · rcases List.mem_append.mp hr' with hr' | hr'
      · exact h.same_fingerprint r hr r' hr' heq
      · obtain rfl := List.mem_singleton.mp hr'
        exact hlive r hr heq
    · obtain rfl := List.mem_singleton.mp hr
      rcases List.mem_append.mp hr' with hr' | hr'
      · exact (hlive r' hr' heq.symm).symm
      · obtain rfl := List.mem_singleton.mp hr'
        rfl
  case warm_first =>
    intro hsession pre r post hsent hkind
    dsimp only at hsent
    rcases List.eq_nil_or_concat post with rfl | ⟨post', last, rfl⟩
    · -- the new request
      obtain ⟨hpre, hlast⟩ := List.append_inj' hsent rfl
      obtain rfl := (List.cons.inj hlast).1
      rw [← hpre]
      exact hwarm hsession hkind
    · rw [List.concat_eq_append, ← List.cons_append, ← List.append_assoc] at hsent
      obtain ⟨hpre, -⟩ := List.append_inj' hsent rfl
      exact h.warm_first hsession pre r post' hpre hkind
  case sent_lt =>
    intro r hr
    rcases List.mem_append.mp hr with hr | hr
    · exact h.sent_lt r hr
    · obtain rfl := List.mem_singleton.mp hr
      exact h.client_lt proxy client hclient
  case live_fingerprint =>
    intro proxy' r hr hclient'
    rcases List.mem_append.mp hr with hr | hr
    · exact h.live_fingerprint proxy' r hr hclient'
    · obtain rfl := List.mem_singleton.mp hr
      rw [h.client_inj proxy' proxy client hclient' hclient]
      exact hprint
  case warmed_up =>
    intro proxy' hmem client' hclient'
    exact (h.warmed_up proxy' hmem client' hclient').mono (List.subset_append_left _ _)

variable (outcome) in
/-- After the warm-up of an attempt, the session was warmed up if it had to be. -/
theorem Sessions.warmUp (h : Sessions cfg s) (hclient : s.clients proxy = some client)
    (hprint : s.fingerprints proxy = some fingerprint) :
    Sessions cfg (warmUp cfg proxy fingerprint client outcome s).2 ∧
      (warmUp cfg proxy fingerprint client outcome s).2.clients = s.clients ∧
      (warmUp cfg proxy fingerprint client outcome s).2.fingerprints = s.fingerprints ∧
      ((warmUp cfg proxy fingerprint client outcome s).1 = .ok () → cfg.warmupSession = true →
        WarmedUp client (warmUp cfg proxy fingerprint client outcome s).2.sent) := by
  unfold OzonHttpClient.warmUp
  split_ifs with hneeded
  · have hsend : ∀ returned, Sessions cfg
        (OzonHttpClient.send ⟨client, .warmup, fingerprint, returned⟩ s) :=
      fun returned => h.send hclient hprint returned fun _ hkind => absurd rfl hkind
    cases outcome.errorAt .warmup with
    | some exc => exact ⟨hsend false, rfl, rfl, fun heq => by cases heq⟩
    | none =>
      have hsent := hsend true
      have hwarmed : WarmedUp client
          (OzonHttpClient.send ⟨client, .warmup, fingerprint, true⟩ s).sent :=
        ⟨_, List.mem_append_right _ (List.mem_singleton_self _), rfl, rfl, rfl⟩
      refine ⟨{ hsent with warmed_subset := ?warmed_subset, warmed_up := ?warmed_up }, rfl, rfl,
        fun _ _ => hwarmed⟩
      case warmed_subset =>
        intro proxy' hmem
        rcases Finset.mem_insert.mp hmem with rfl | hmem
        · have hsome : (s.clients proxy').isSome = true := by rw [hclient]; rfl
          exact hsome
        · exact hsent.warmed_subset proxy' hmem
      case warmed_up =>
        intro proxy' hmem client' hclient'
        rcases Finset.mem_insert.mp hmem with rfl | hmem
        · have heq : some client = some client' := hclient.symm.trans hclient'
          rw [← Option.some.inj heq]
          exact hwarmed
        · exact hsent.warmed_up proxy' hmem client' hclient'
  · refine ⟨h, rfl, rfl, fun _ hsession => ?_⟩
    have hmem : proxy ∈ s.warmedProxies := by
      by_contra hcold
      exact hneeded ⟨hsession, hcold⟩
    exact h.warmed_up proxy hmem client hclient

theorem Sessions.composerRequest (h : Sessions cfg s) (hclient : s.clients proxy = some client)
    (hprint : s.fingerprints proxy = some fingerprint)
    (hwarm : cfg.warmupSession = true → WarmedUp client s.sent) :
    Sessions cfg (composerRequest pagePath fingerprint client outcome s).2 := by
  cases outcome with
  | answered status text json => exact h.send hclient hprint true fun hsession _ => hwarm hsession
  | transportError text stage | otherError text stage =>
    exact h.send hclient hprint false fun hsession _ => hwarm hsession

variable (pagePath outcome) in
theorem Sessions.fetchOnce (h : Sessions cfg s)
    (hprint : s.fingerprints proxy = some fingerprint) :
    Sessions cfg (fetchOnce cfg pagePath proxy fingerprint outcome s).2 := by
  unfold OzonHttpClient.fetchOnce
  obtain ⟨hopened, hprints, hclient⟩ := h.clientForProxy outcome hprint
  rcases hopen : OzonHttpClient.clientForProxy proxy outcome s with ⟨opened, s'⟩
  rw [hopen] at hopened hprints hclient
  cases opened with
  | error exc => exact hopened
  | ok client =>
    have hlive := hclient client rfl
    have hprint' : s'.fingerprints proxy = some fingerprint := by rw [hprints]; exact hprint
    obtain ⟨hwarmed, hclients, hprints', hwarm⟩ := hopened.warmUp outcome hlive hprint'
    dsimp only
    rcases hrun : OzonHttpClient.warmUp cfg proxy fingerprint client outcome s' with ⟨warmed, s''⟩
    rw [hrun] at hwarmed hclients hprints' hwarm
    cases warmed with
    | error exc => exact hwarmed
    | ok _ =>
      dsimp only at hclients hprints' hwarm
      refine hwarmed.composerRequest (by rw [hclients]; exact hlive)
        (by rw [hprints']; exact hprint') (hwarm rfl)

/-- A session is dropped together with its fingerprint. -/
theorem Sessions.dropClient (h : Sessions cfg s) : Sessions cfg (dropClient proxy s) := by
  unfold OzonHttpClient.dropClient
  have hkept : ∀ {proxy' client}, Function.update s.clients proxy none proxy' = some client →
      proxy' ≠ proxy ∧ s.clients proxy' = some client := by
    intro proxy' client hlive
    rcases clients_update_eq_some hlive with ⟨-, hnone⟩ | hkept
    · cases hnone
    · exact hkept
  refine { h with
    warmed_subset := ?warmed_subset, clients_subset := ?clients_subset
    client_lt := fun proxy' client hlive => h.client_lt proxy' client (hkept hlive).2
    client_inj := ?client_inj, live_fingerprint := ?live_fingerprint, warmed_up := ?warmed_up }
  case warmed_subset =>
    intro proxy' hmem
    obtain ⟨hproxy, hwarm⟩ := Finset.mem_erase.mp hmem
    dsimp only
    rw [Function.update_of_ne hproxy]
    exact h.warmed_subset proxy' hwarm
  case clients_subset =>
    intro proxy' hsome
    obtain ⟨client, hlive⟩ := Option.isSome_iff_exists.mp hsome
    obtain ⟨hproxy, hclient⟩ := hkept hlive
    dsimp only
    rw [Function.update_of_ne hproxy]
    exact h.clients_subset proxy' (by rw [hclient]; rfl)
  case client_inj =>
    intro proxy₁ proxy₂ client h₁ h₂
    exact h.client_inj proxy₁ proxy₂ client (hkept h₁).2 (hkept h₂).2
  case live_fingerprint =>
    intro proxy' r hr hlive
    obtain ⟨hproxy, hclient⟩ := hkept hlive
    dsimp only
    rw [Function.update_of_ne hproxy]
    exact h.live_fingerprint proxy' r hr hclient
  case warmed_up =>
    intro proxy' hmem client hlive
    exact h.warmed_up proxy' (Finset.mem_of_mem_erase hmem) client (hkept hlive).2

theorem Sessions.close (h : Sessions cfg s) : Sessions cfg (close s) where
  warmed_subset := by simp [OzonHttpClient.close]
  clients_subset := by simp [OzonHttpClient.close]
  same_fingerprint := h.same_fingerprint
  warm_first := h.warm_first
  client_lt := by simp [OzonHttpClient.close]
  client_inj := by simp [OzonHttpClient.close]
  sent_lt := h.sent_lt
  live_fingerprint := by simp [OzonHttpClient.close]
  warmed_up := by simp [OzonHttpClient.close]

/-- **An attempt keeps the invariant**, wherever it fails. -/
theorem Sessions.runAttempt (h : Sessions cfg s) :
    Sessions cfg (runAttempt cfg pagePath a s).2 := by
  unfold OzonHttpClient.runAttempt
  have hnext := h.nextProxy
  rcases hturn : OzonHttpClient.nextProxy cfg s with ⟨proxy, s₁⟩
  rw [hturn] at hnext
  obtain ⟨hchosen, hprint⟩ := hnext.fingerprintForProxy proxy a
  rcases hchoice : OzonHttpClient.fingerprintForProxy cfg proxy a s₁ with ⟨fingerprint, s₂⟩
  rw [hchoice] at hchosen hprint
  have hfetched := hchosen.fetchOnce pagePath a.outcome hprint
  rcases hfetch : OzonHttpClient.fetchOnce cfg pagePath proxy fingerprint a.outcome s₂ with
    ⟨result, s₃⟩
  rw [hfetch] at hfetched
  simp only [hchoice, hfetch]
  split
  · exact hfetched.dropClient
  · exact hfetched

end Steps

/-! ### Lifetimes -/

/-- The calls on a client. -/
inductive Call
  | getComposerJson (pagePath : Str)
  | close

section Lifetime

variable (cfg : Config) (network : ℕ → Attempt)

/-- The states after the attempts of a call, as `composerLoop` goes through them. -/
def attemptStates (pagePath : Str) : (more attempt : ℕ) → State → List State
  | 0, _, _ => []
  | more + 1, attempt, s =>
    match cfg.waitError attempt with
    | some _ => []
    | none =>
      match runAttempt cfg pagePath (network s.tried.length) s with
      | (.failed _, s) => s :: attemptStates pagePath more (attempt + 1) s
      | (_, s) => [s]

/-- The state after a call. -/
def runCall (s : State) : Call → State
  | .getComposerJson pagePath => (getComposerJson cfg network pagePath s).2
  | .close => close s

/-- The states after each attempt and each `close()` of a call. -/
def callStates (s : State) : Call → List State
  | .getComposerJson pagePath => attemptStates cfg network pagePath cfg.attempts 0 s
  | .close => [close s]

/-- The states after each attempt and each `close()` of a lifetime. -/
def lifetimeStates (s : State) : List Call → List State
  | [] => []
  | call :: calls =>
    callStates cfg network s call ++ lifetimeStates (runCall cfg network s call) calls

variable {cfg network} {pagePath : Str} {more attempt : ℕ} {lastError : Str} {s : State}

/-- A call leaves the state of its last attempt. -/
theorem composerLoop_snd : (composerLoop cfg network pagePath more attempt lastError s).2 =
    (attemptStates cfg network pagePath more attempt s).getLast?.getD s := by
  induction more generalizing attempt lastError s with
  | zero => rfl
  | succ more ih =>
    unfold composerLoop attemptStates
    cases cfg.waitError attempt with
    | some exc => rfl
    | none =>
      dsimp only
      rcases runAttempt cfg pagePath (network s.tried.length) s with ⟨ended, s'⟩
      cases ended with
      | returned payload => rfl
      | raised exc => rfl
      | failed error =>
        dsimp only
        rw [ih, List.getLast?_cons, Option.getD_some]

theorem Sessions.attemptStates (h : Sessions cfg s) :
    ∀ s' ∈ attemptStates cfg network pagePath more attempt s, Sessions cfg s' := by
  -- the states between the attempts, each from the one before it
  induction more generalizing attempt s with
  | zero => simp [OzonHttpClient.attemptStates]
  | succ more ih =>
    unfold OzonHttpClient.attemptStates
    have hnext :
        Sessions cfg (OzonHttpClient.runAttempt cfg pagePath (network s.tried.length) s).2 :=
      h.runAttempt
    cases cfg.waitError attempt with
    | some exc => simp
    | none =>
      dsimp only
      rcases hrun : OzonHttpClient.runAttempt cfg pagePath (network s.tried.length) s with
        ⟨ended, s'⟩
      rw [hrun] at hnext
      cases ended with
      | returned payload => simpa using hnext
      | raised exc => simpa using hnext
      | failed error =>
        intro s'' hmem
        rcases List.mem_cons.mp hmem with rfl | hmem
        · exact hnext
        · exact ih hnext s'' hmem

theorem Sessions.callStates (h : Sessions cfg s) (call : Call) :
    ∀ s' ∈ callStates cfg network s call, Sessions cfg s' := by
  cases call with
  | getComposerJson pagePath => exact h.attemptStates
  | close => simpa [OzonHttpClient.callStates] using h.close

theorem Sessions.runCall (h : Sessions cfg s) (call : Call) :
    Sessions cfg (runCall cfg network s call) := by
  cases call with
  | close => exact h.close
  | getComposerJson pagePath =>
    unfold OzonHttpClient.runCall OzonHttpClient.getComposerJson
    dsimp only
    rw [composerLoop_snd]
    cases hlast : (OzonHttpClient.attemptStates cfg network pagePath cfg.attempts 0 s).getLast? with
    | none => exact h
    | some s' => exact h.attemptStates s' (List.mem_of_getLast? hlast)

theorem Sessions.lifetimeStates (h : Sessions cfg s) (calls : List Call) :
    ∀ s' ∈ lifetimeStates cfg network s calls, Sessions cfg s' := by
  induction calls generalizing s with
  | nil => simp [OzonHttpClient.lifetimeStates]
  | cons call calls ih =>
    intro s' hmem
    rcases List.mem_append.mp hmem with hmem | hmem
    · exact h.callStates call s' hmem
    · exact ih (h.runCall call) s' hmem

end Lifetime

/-- **The sessions of a client are consistent** after every attempt and every `close()` of its
lifetime, whatever the network does. -/
theorem lifetime_consistent (cfg : Config) (network : ℕ → Attempt) (calls : List Call) :
    ∀ s ∈ lifetimeStates cfg network {} calls, Consistent cfg s :=
  fun s hmem => (sessions_start.lifetimeStates calls s hmem).toConsistent

/-- A client without proxies. -/
def directConfig : Config where
  firstProfile := { name := "chrome".toList, userAgent := "Mozilla/5.0".toList }
  lower := id

/-- An attempt that is answered with a widget. -/
def answeredAttempt : Attempt where
  profile := directConfig.firstProfile
  viewport := (1920, 1080)
  outcome := .answered 200 [] (.ok (.dict [("widgetStates".toList, .dict [([], .null)])]))

/-- A call that is answered at once sends a warm-up and a composer request. -/
theorem lifetime_consistent_answered :
    (getComposerJson directConfig (fun _ => answeredAttempt) "/".toList {}).2.sent.length = 2 ∧
      Consistent directConfig
        (getComposerJson directConfig (fun _ => answeredAttempt) "/".toList {}).2 := by
  refine ⟨by rfl, lifetime_consistent directConfig (fun _ => answeredAttempt)
    [.getComposerJson "/".toList] _ ?_⟩
  exact List.mem_append_left _ List.mem_cons_self

end MarketplacePipeline.OzonHttpClient
