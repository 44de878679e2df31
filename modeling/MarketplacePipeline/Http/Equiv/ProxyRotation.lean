import MarketplacePipeline.Algorithm.RoundRobin
import MarketplacePipeline.Http.Equiv.ClientSessions
import MarketplacePipeline.Http.Equiv.ComposerCall

/-!
# The turns of the proxies

The index of `_next_proxy` is kept from call to call, and an attempt advances it by one wherever it
ends.  So the attempts of a lifetime take the positions of the proxy list in turn, however its calls
end (`Rotated.afterCalls`), and a call that uses up its attempts has gone round the list
`max(1, max_retries)` times (`rotates_proxies`).
-/

namespace MarketplacePipeline.OzonHttpClient

open RoundRobin

/-! ### The attempts of a lifetime -/

section Starts

variable (cfg : Config) (network : ℕ → Attempt)

/-- The attempts of a call, as `composerLoop` makes them: the number of each, and the state from
which it is made. -/
def attemptStarts (pagePath : Str) : (more attempt : ℕ) → State → List (ℕ × State)
  | 0, _, _ => []
  | more + 1, attempt, s =>
    match cfg.waitError attempt with
    | some _ => []
    | none =>
      (attempt, s) ::
        match runAttempt cfg pagePath (network s.tried.length) s with
        | (.failed _, s) => attemptStarts pagePath more (attempt + 1) s
        | (_, _) => []

def callStarts (s : State) : Call → List (ℕ × State)
  | .getComposerJson pagePath => attemptStarts cfg network pagePath cfg.attempts 0 s
  | .close => []

def lifetimeStarts (s : State) : List Call → List (ℕ × State)
  | [] => []
  | call :: calls =>
    callStarts cfg network s call ++ lifetimeStarts (runCall cfg network s call) calls

/-- The state after some calls. -/
def afterCalls (s : State) (calls : List Call) : State := calls.foldl (runCall cfg network) s

/-- The positions in the proxy list that `_next_proxy` takes for the attempts. -/
def positions (starts : List (ℕ × State)) : List ℕ :=
  starts.map fun start => start.2.proxyIndex % cfg.proxies.length

end Starts

/-! ### Turns -/

/-- Between two states, attempts took these positions in turn. -/
structure Rotated (cfg : Config) (s s' : State) (taken : List ℕ) : Prop where
  taken_eq : taken = turns cfg.proxies.length s.proxyIndex taken.length
  index : s'.proxyIndex = s.proxyIndex + taken.length
  tried : s'.tried = s.tried ++ taken.map fun position => cfg.proxies[position]?

section Turns

variable {cfg : Config} {network : ℕ → Attempt} {pagePath : Str} {more attempt : ℕ}
  {lastError : Str} {s s' s'' : State} {taken taken' : List ℕ}

theorem Rotated.refl (cfg : Config) (s : State) : Rotated cfg s s [] := ⟨rfl, rfl, by simp⟩

theorem Rotated.trans (h : Rotated cfg s s' taken) (h' : Rotated cfg s' s'' taken') :
    Rotated cfg s s'' (taken ++ taken') where
  taken_eq := by
    rw [List.length_append, turns_append, ← h.index, ← h.taken_eq, ← h'.taken_eq]
  index := by
    rw [h'.index, h.index, List.length_append, Nat.add_assoc]
  tried := by
    rw [h'.tried, h.tried, List.map_append, List.append_assoc]

variable (pagePath) in
/-- An attempt takes the position of the index. -/
theorem Rotated.runAttempt (hproxies : cfg.proxies ≠ []) (a : Attempt) :
    Rotated cfg s (runAttempt cfg pagePath a s).2 [s.proxyIndex % cfg.proxies.length] := by
  obtain ⟨htried, hindex⟩ := (runAttempt_spec cfg pagePath a s).2
  refine ⟨rfl, ?_, ?_⟩
  · rw [hindex]
    simp [nextProxy, hproxies]
  · rw [htried, nextProxy_tried]
    simp [Config.proxyAt, hproxies]

theorem Rotated.composerLoop (hproxies : cfg.proxies ≠ []) :
    Rotated cfg s (composerLoop cfg network pagePath more attempt lastError s).2
      (positions cfg (attemptStarts cfg network pagePath more attempt s)) := by
  -- each attempt moves the rotation on by its own positions
  induction more generalizing attempt lastError s with
  | zero => exact .refl cfg s
  | succ more ih =>
    unfold OzonHttpClient.composerLoop attemptStarts
    cases cfg.waitError attempt with
    | some exc => exact .refl cfg s
    | none =>
      have hattempt : Rotated cfg s _ _ := .runAttempt pagePath hproxies (network s.tried.length)
      dsimp only
      rcases hrun : OzonHttpClient.runAttempt cfg pagePath (network s.tried.length) s with
        ⟨ended, s'⟩
      rw [hrun] at hattempt
      cases ended with
      | returned payload => exact hattempt
      | raised exc => exact hattempt
      | failed error => exact hattempt.trans ih

/-- The attempts are used up where `OzonAntiBotError` is raised. -/
theorem length_attemptStarts_of_antiBot {status : ℕ} {detail : Str}
    (h : (composerLoop cfg network pagePath more attempt lastError s).1 =
      .error (.antiBot status detail)) :
    (attemptStarts cfg network pagePath more attempt s).length = more := by
  induction more generalizing attempt lastError s with
  | zero => rfl
  | succ more ih =>
    unfold composerLoop at h
    unfold attemptStarts
    cases hwait : cfg.waitError attempt with
    | some exc =>
      rw [hwait] at h
      cases h
    | none =>
      rw [hwait] at h
      dsimp only at h ⊢
      have hverdict := verdict_runAttempt cfg network pagePath s
      rcases hrun : runAttempt cfg pagePath (network s.tried.length) s with ⟨ended, s'⟩
      rw [hrun] at h hverdict
      cases ended with
      | returned payload => cases h
      -- an attempt raises a quota signal or what nothing handles, but not `OzonAntiBotError`
      | raised exc => cases hverdict <;> cases h
      | failed error => rw [List.length_cons, ih h]

theorem Rotated.runCall (hproxies : cfg.proxies ≠ []) (call : Call) :
    Rotated cfg s (runCall cfg network s call) (positions cfg (callStarts cfg network s call)) := by
  cases call with
  | getComposerJson pagePath => exact .composerLoop hproxies
  | close => exact ⟨rfl, rfl, by simp [positions, callStarts, OzonHttpClient.runCall, close]⟩

theorem Rotated.afterCalls (hproxies : cfg.proxies ≠ []) (calls : List Call) :
    Rotated cfg s (afterCalls cfg network s calls)
      (positions cfg (lifetimeStarts cfg network s calls)) := by
  induction calls generalizing s with
  | nil => exact .refl cfg s
  | cons call calls ih =>
    have hcall : Rotated cfg s (OzonHttpClient.runCall cfg network s call) _ :=
      .runCall hproxies call
    rw [lifetimeStarts, positions, List.map_append]
    exact hcall.trans ih

end Turns

/-- In a lifetime, the attempts take the proxies in turn: attempt `j` takes position `j % n`, after
any number of attempts the positions have been taken equally often, up to one, and whenever
`OzonAntiBotError` is raised, the call has tried every position `max(1, max_retries)` times. -/
structure RotatesProxies (cfg : Config) (network : ℕ → Attempt) (calls : List Call) : Prop where
  position : ∀ j position, (positions cfg (lifetimeStarts cfg network {} calls))[j]? =
    some position → position = j % cfg.proxies.length
  tried : (afterCalls cfg network {} calls).tried =
    (positions cfg (lifetimeStarts cfg network {} calls)).map fun position => cfg.proxies[position]?
  balanced : ∀ k p q, p < cfg.proxies.length → q < cfg.proxies.length →
    ((positions cfg (lifetimeStarts cfg network {} calls)).take k).count p ≤
      ((positions cfg (lifetimeStarts cfg network {} calls)).take k).count q + 1
  covered : ∀ pagePath status detail,
    (getComposerJson cfg network pagePath (afterCalls cfg network {} calls)).1 =
      .error (.antiBot status detail) →
    ∀ p < cfg.proxies.length,
      (positions cfg (callStarts cfg network (afterCalls cfg network {} calls)
        (.getComposerJson pagePath))).count p = (max 1 cfg.maxRetries).toNat

/-- **The attempts of a client take its proxies in turn**, over any calls and whatever the network
does to them. -/
theorem rotates_proxies (cfg : Config) (hproxies : cfg.proxies ≠ []) (network : ℕ → Attempt)
    (calls : List Call) : RotatesProxies cfg network calls := by
  have hlifetime : Rotated cfg {} (afterCalls cfg network {} calls) _ := .afterCalls hproxies calls
  have hturns := hlifetime.taken_eq
  constructor
  case position =>
    intro j position hposition
    have hj := List.getElem?_eq_some_iff.mp hposition
    rw [hturns, getElem?_turns hj.1, Nat.zero_add] at hposition
    exact (Option.some.inj hposition).symm
  case tried => simpa using hlifetime.tried
  case balanced =>
    intro k p q hp hq
    rw [hturns, take_turns]
    exact count_turns_le hp hq _ _
  case covered =>
    intro pagePath status detail hraised p hp
    have hcall : Rotated cfg _ (runCall cfg network (afterCalls cfg network {} calls) _) _ :=
      .runCall hproxies (.getComposerJson pagePath)
    have hlength := length_attemptStarts_of_antiBot hraised
    -- the attempts of the call are whole rounds, wherever the index stood before it
    have hattempts : cfg.attempts = (max 1 cfg.maxRetries).toNat * cfg.proxies.length := by
      have hone : 1 ≤ cfg.proxies.length := by omega
      rw [Config.attempts, Nat.max_eq_right hone]
    rw [hcall.taken_eq, positions, List.length_map, callStarts, hlength, hattempts]
    exact count_turns_rounds hp _ _

/-- A client with two proxies and two rounds. -/
def twoProxies : Config where
  maxRetries := 2
  proxyList := "http://a:1,http://b:2".toList
  firstProfile := { name := "chrome".toList, userAgent := "Mozilla/5.0".toList }
  lower := id

/-- The first attempt is answered with a payload, and all others with status 403. -/
def blockedLater (i : ℕ) : Attempt :=
  { htmlAttempt with
    outcome := .answered (if i = 0 then 200 else 403) "<html></html>".toList
      (.ok (.dict [("widgetStates".toList, .str ['x'])])) }

theorem rotates_proxies_twoProxies : RotatesProxies twoProxies blockedLater
    [.getComposerJson "/category/".toList, .close, .getComposerJson "/category/".toList] :=
  rotates_proxies twoProxies (by decide) blockedLater _

end MarketplacePipeline.OzonHttpClient
