import MarketplacePipeline.Api.Equiv.RateLimit

/-!
# Concurrent requests at the Redis limiter

A request reads the clock before its transaction, so the transactions need not run in the order of
the clock readings.  The bound on every window holds as long as each transaction still finds the
entries of the allowed requests that are less than 60 seconds away from its own reading;
transactions that run in the order of the readings, each within a second of its own, do
(`bounds_windows`).
-/

namespace MarketplacePipeline.RedisSlidingWindowRateLimiter

open Schedule SortedSet

variable {ι : Type}

/-- The request was allowed, and its clock reading lies in `[a, a + 60)`. -/
def AllowedIn (s : AllowState ι) (a : ℚ) (i : ι) : Prop :=
  ∃ now, s.pc i = .returned now true ∧ a ≤ now ∧ now < a + 60

/-- No window of 60 seconds has more than `limit` allowed requests. -/
def WindowsBounded (limiter : RedisSlidingWindowRateLimiter) (s : AllowState ι) : Prop :=
  ∀ (a : ℚ) (requests : Finset ι), (∀ i ∈ requests, AllowedIn s a i) →
    (requests.card : ℤ) ≤ limiter.limit

/-- The entry of an allowed request less than 60 seconds away from `now` is in the set. -/
def Counted (s : AllowState ι) (now time : ℚ) (j : ι) : Prop :=
  ∀ t, s.pc j = .returned t true → now < t + 60 → t < now + 60 → (j, t) ∈ s.shared.zset.live time

/-- If the next step of the request is its transaction, then the set still has the entries of all
allowed requests less than 60 seconds away from its clock reading. -/
def EntriesKept (a : ι × ℚ≥0) (s : AllowState ι) : Prop :=
  ∀ now, s.pc a.1 = .execute now → ∀ j, Counted s now (s.shared.clock + a.2 : ℚ≥0) j

instance [DecidableEq ι] (s : AllowState ι) (now time : ℚ) (j : ι) :
    Decidable (Counted s now time j) :=
  match h : s.pc j with
  | .returned t true =>
    decidable_of_iff (now < t + 60 → t < now + 60 → (j, t) ∈ s.shared.zset.live time)
      (by simp [Counted, h])
  | .returned _ false | .readClock | .execute _ | .zrem _ => .isTrue (by simp [Counted, h])

instance [DecidableEq ι] [Fintype ι] (a : ι × ℚ≥0) (s : AllowState ι) :
    Decidable (EntriesKept a s) :=
  match h : s.pc a.1 with
  | .execute now =>
    decidable_of_iff (∀ j, Counted s now (s.shared.clock + a.2 : ℚ≥0) j)
      (by simp [EntriesKept, h])
  | .readClock | .zrem _ | .returned _ _ => .isTrue (by simp [EntriesKept, h])

/-! ### One request alone -/

/-- Three undisturbed steps of a request do what `allow` does. -/
theorem run_solo [DecidableEq ι] (limiter : RedisSlidingWindowRateLimiter) (i : ι)
    (clock : ℚ≥0) (clientKey : Str) (db : Str → SortedSet ι) :
    let s := run limiter.step ⟨⟨db (limiter.redisKey clientKey), clock⟩, fun _ => .readClock⟩
      (List.replicate 3 (i, 0))
    s.pc i = .returned clock (limiter.allow clock clientKey i db).1 ∧
      s.shared.zset = (limiter.allow clock clientKey i db).2 (limiter.redisKey clientKey) := by
  have hallow : limiter.allow clock clientKey i db =
      if limiter.limit ≤ 0 then (true, db)
      else if limiter.limit <
          (transaction i (clock : ℚ) clock (db (limiter.redisKey clientKey))).1 then
        (false, Function.update db (limiter.redisKey clientKey) (rollback i clock
          (transaction i (clock : ℚ) clock (db (limiter.redisKey clientKey))).2))
      else (true, Function.update db (limiter.redisKey clientKey)
        (transaction i (clock : ℚ) clock (db (limiter.redisKey clientKey))).2) := rfl
  rw [hallow]
  by_cases hlimit : limiter.limit ≤ 0
  · simp [step, stepParty, clockedStep, allowStep, List.replicate, hlimit]
  · by_cases hfull : limiter.limit <
      (transaction i (clock : ℚ) clock (db (limiter.redisKey clientKey))).1
    · simp [step, stepParty, clockedStep, allowStep, List.replicate, hlimit, hfull]
    · simp [step, stepParty, clockedStep, allowStep, List.replicate, hlimit, hfull]

/-! ### What every step keeps -/

/-- The request has not run its transaction. -/
def BeforeExecute : AllowPc → Prop
  | .readClock | .execute _ => True
  | .zrem _ | .returned _ _ => False

/-- Where a request may stand at `clock`: its clock reading is not in the future. -/
def PcOk (clock : ℚ) : AllowPc → Prop
  | .readClock => True
  | .execute now | .zrem now | .returned now _ => 0 ≤ now ∧ now ≤ clock

/-- The entries belong to requests that have run their transaction, and carry clock readings. -/
structure AllowInv (s : AllowState ι) : Prop where
  fresh : ∀ i, BeforeExecute (s.pc i) → ∀ e ∈ s.shared.zset.entries, e.1 ≠ i
  nonneg : ∀ e ∈ s.shared.zset.entries, 0 ≤ e.2
  pc : ∀ i, PcOk s.shared.clock (s.pc i)

theorem PcOk.mono {clock clock' : ℚ} {pc : AllowPc} (h : PcOk clock pc) (hle : clock ≤ clock') :
    PcOk clock' pc := by
  cases pc with
  | readClock => trivial
  | execute now | zrem now | returned now allowed => exact ⟨h.1, h.2.trans hle⟩

section Steps

variable [DecidableEq ι] {limiter : RedisSlidingWindowRateLimiter} {s : AllowState ι}
  {a : ι × ℚ≥0}

theorem pc_step_self : (limiter.step a s).pc a.1 =
    (limiter.allowStep a.1 (s.shared.clock + a.2 : ℚ≥0) (s.pc a.1) s.shared.zset).1 :=
  pc_stepParty_self

theorem zset_step : (limiter.step a s).shared.zset =
    (limiter.allowStep a.1 (s.shared.clock + a.2 : ℚ≥0) (s.pc a.1) s.shared.zset).2 := rfl

theorem pc_step_of_ne {i : ι} (h : i ≠ a.1) : (limiter.step a s).pc i = s.pc i :=
  pc_stepParty_of_ne h

omit [DecidableEq ι] in
theorem clock_le_next : (s.shared.clock : ℚ) ≤ (s.shared.clock + a.2 : ℚ≥0) := by
  push_cast
  exact le_add_of_nonneg_right a.2.2

/-- The transaction of a request: what it decides and what it leaves. -/
theorem allowStep_execute (hinv : AllowInv s) {now : ℚ} (hpc : s.pc a.1 = .execute now)
    (time : ℚ) :
    limiter.allowStep a.1 time (.execute now) s.shared.zset =
      (if limiter.limit < (kept now time s.shared.zset).card + 1 then .zrem now
        else .returned now true,
        ⟨insert (a.1, now) (kept now time s.shared.zset), time + 61⟩) := by
  have hfresh := hinv.fresh a.1 (by rw [hpc]; trivial)
  rw [allowStep]
  simp only [transaction_eq hinv.nonneg hfresh]
  push_cast
  rfl

/-- A step adds at most the entry of the request that moves, in its transaction. -/
theorem mem_entries_step (hinv : AllowInv s) {e : ι × ℚ}
    (he : e ∈ (limiter.step a s).shared.zset.entries) :
    e ∈ s.shared.zset.entries ∨ s.pc a.1 = .execute e.2 ∧ e.1 = a.1 := by
  rw [zset_step] at he
  cases hpc : s.pc a.1 with
  | readClock | returned now allowed =>
    rw [hpc] at he
    exact Or.inl he
  | execute now =>
    rw [hpc, allowStep_execute hinv hpc, Finset.mem_insert] at he
    rcases he with rfl | he
    · exact Or.inr ⟨rfl, rfl⟩
    · exact Or.inl (mem_kept he)
  | zrem now =>
    rw [hpc] at he
    exact Or.inl (mem_live (Finset.mem_of_mem_filter _ he))

theorem AllowInv.step (hinv : AllowInv s) : AllowInv (limiter.step a s) := by
  have hothers : ∀ i, PcOk (s.shared.clock + a.2 : ℚ≥0) (s.pc i) :=
    fun i => (hinv.pc i).mono clock_le_next
  refine ⟨fun i hi e he => ?_, fun e he => ?_, fun i => ?_⟩
  · -- whoever is still before its transaction has not moved into the set
    have hbefore : BeforeExecute (s.pc i) ∧ (i = a.1 → ∀ now, s.pc i ≠ .execute now) := by
      by_cases hia : i = a.1
      · subst hia
        rw [pc_step_self] at hi
        cases hpc : s.pc a.1 with
        | readClock => exact ⟨trivial, by simp⟩
        | execute now =>
          rw [hpc, allowStep_execute hinv hpc] at hi
          dsimp only at hi
          split_ifs at hi
          · exact absurd hi id
          · exact absurd hi id
        | zrem now | returned now allowed =>
          rw [hpc] at hi
          exact absurd hi id
      · rw [pc_step_of_ne hia] at hi
        exact ⟨hi, fun h => absurd h hia⟩
    rcases mem_entries_step hinv he with hold | ⟨hpc, hnew⟩
    · exact hinv.fresh i hbefore.1 e hold
    · intro hei
      have hia : i = a.1 := hei.symm.trans hnew
      exact hbefore.2 hia e.2 (by rw [hia]; exact hpc)
  · rcases mem_entries_step hinv he with hold | ⟨hpc, -⟩
    · exact hinv.nonneg e hold
    · have hreading := hinv.pc a.1
      rw [hpc] at hreading
      exact hreading.1
  · refine forall_pc_stepParty (P := fun _ => PcOk (s.shared.clock + a.2 : ℚ≥0)) ?_ hothers i
    show PcOk _ (limiter.allowStep a.1 _ (s.pc a.1) s.shared.zset).1
    have hself := hothers a.1
    cases hpc : s.pc a.1 with
    | readClock =>
      have hnow : (0 : ℚ) ≤ (s.shared.clock + a.2 : ℚ≥0) := NNRat.coe_nonneg _
      rw [allowStep]
      split_ifs
      · exact ⟨hnow, le_rfl⟩
      · exact ⟨hnow, le_rfl⟩
    | execute now =>
      rw [hpc] at hself
      rw [allowStep_execute hinv hpc]
      dsimp only
      split_ifs
      · exact hself
      · exact hself
    | zrem now | returned now allowed =>
      rw [hpc] at hself
      exact hself

/-! ### The bound on every window -/

/-- A request that is allowed by a step was allowed before it, or has just run its transaction and
found room. -/
theorem allowed_step (hlimit : 1 ≤ limiter.limit) (hinv : AllowInv s) {i : ι} {now : ℚ}
    (h : (limiter.step a s).pc i = .returned now true) :
    s.pc i = .returned now true ∨
      i = a.1 ∧ s.pc i = .execute now ∧
        ((kept now (s.shared.clock + a.2 : ℚ≥0) s.shared.zset).card : ℤ) < limiter.limit := by
  by_cases hia : i = a.1
  · subst hia
    rw [pc_step_self] at h
    cases hpc : s.pc a.1 with
    | readClock =>
      rw [hpc, allowStep, if_neg (by omega)] at h
      cases h
    | execute t =>
      rw [hpc, allowStep_execute hinv hpc] at h
      dsimp only at h
      split_ifs at h with hfull
      obtain ⟨rfl, -⟩ := AllowPc.returned.inj h
      exact Or.inr ⟨rfl, rfl, by omega⟩
    | zrem t =>
      rw [hpc] at h
      cases h
    | returned t allowed =>
      rw [hpc] at h
      exact Or.inl h
  · rw [pc_step_of_ne hia] at h
    exact Or.inl h

/-- The allowed requests of a window that contains `now` are among the entries a transaction
counts. -/
theorem card_le_card_kept {now time b : ℚ} (hnow : b ≤ now ∧ now < b + 60)
    (hcounted : ∀ j, Counted s now time j) {requests : Finset ι}
    (hall : ∀ j ∈ requests, AllowedIn s b j) :
    requests.card ≤ (kept now time s.shared.zset).card := by
  have hsub : requests ⊆ (kept now time s.shared.zset).image Prod.fst := by
    intro j hj
    obtain ⟨t, hpc, hlo, hhi⟩ := hall j hj
    have hlive : (j, t) ∈ s.shared.zset.live time :=
      hcounted j t hpc (by linarith [hnow.2]) (by linarith [hnow.1])
    have hyoung : now - 60 < t := by linarith [hnow.2]
    exact Finset.mem_image.mpr ⟨(j, t), Finset.mem_filter.mpr ⟨hlive, hyoung⟩, rfl⟩
  exact (Finset.card_le_card hsub).trans Finset.card_image_le

theorem WindowsBounded.step (hlimit : 1 ≤ limiter.limit) (hinv : AllowInv s)
    (hbound : WindowsBounded limiter s) (hkept : EntriesKept a s) :
    WindowsBounded limiter (limiter.step a s) := by
  intro b requests hall
  by_cases hnew : ∃ now, s.pc a.1 = .execute now ∧ a.1 ∈ requests
  · obtain ⟨now, hpc, hmem⟩ := hnew
    -- the request that moves is in the window, with the clock reading of its transaction
    obtain ⟨t, hreturned, hwindow⟩ := hall a.1 hmem
    have hroom : ((kept now (s.shared.clock + a.2 : ℚ≥0) s.shared.zset).card : ℤ) <
        limiter.limit ∧ t = now := by
      rcases allowed_step hlimit hinv hreturned with hbefore | ⟨-, hpc', hroom⟩
      · rw [hpc] at hbefore
        cases hbefore
      · rw [hpc] at hpc'
        obtain rfl := AllowPc.execute.inj hpc'
        exact ⟨hroom, rfl⟩
    obtain ⟨hroom, rfl⟩ := hroom
    have hothers : ∀ j ∈ requests.erase a.1, AllowedIn s b j := by
      intro j hj
      obtain ⟨hne, hj⟩ := Finset.mem_erase.mp hj
      obtain ⟨u, hpcj, hu⟩ := hall j hj
      rw [pc_step_of_ne hne] at hpcj
      exact ⟨u, hpcj, hu⟩
    have hcard := card_le_card_kept hwindow (hkept t hpc) hothers
    rw [Finset.card_erase_of_mem hmem] at hcard
    omega
  · -- every request of the window was allowed before the step
    apply hbound b requests
    intro j hj
    obtain ⟨u, hpcj, hu⟩ := hall j hj
    rcases allowed_step hlimit hinv hpcj with hbefore | ⟨rfl, hpc, -⟩
    · exact ⟨u, hbefore, hu⟩
    · exact absurd ⟨u, hpc, hj⟩ hnew

end Steps

section Runs

variable [DecidableEq ι] (limiter : RedisSlidingWindowRateLimiter)

omit [DecidableEq ι] in
theorem allowInv_start (clock : ℚ≥0) : AllowInv (start (ι := ι) clock) :=
  ⟨fun _ _ e he => absurd he (Finset.notMem_empty e), fun e he => absurd he (Finset.notMem_empty e),
    fun _ => trivial⟩

theorem windowsBounded_run (hlimit : 1 ≤ limiter.limit) (clock : ℚ≥0)
    (schedule : List (ι × ℚ≥0))
    (hkept : Meets limiter.step EntriesKept (start clock) schedule) :
    WindowsBounded limiter (run limiter.step (start clock) schedule) := by
  have hstart : WindowsBounded limiter (start (ι := ι) clock) := by
    intro b requests hall
    have hnone : requests = ∅ := by
      rw [Finset.eq_empty_iff_forall_notMem]
      intro j hj
      obtain ⟨_, hpc, -⟩ := hall j hj
      cases hpc
    rw [hnone, Finset.card_empty]
    omega
  have hstep : ∀ (a : ι × ℚ≥0) (s : AllowState ι), AllowInv s ∧ WindowsBounded limiter s →
      EntriesKept a s → AllowInv (limiter.step a s) ∧ WindowsBounded limiter (limiter.step a s) :=
    fun a s h hk => ⟨h.1.step, h.2.step hlimit h.1 hk⟩
  exact (invariant_run_of_meets hstep ⟨allowInv_start clock, hstart⟩ hkept).2

end Runs

/-! ### Prompt transactions -/

/-- The request has run its transaction, with the clock reading `u`. -/
def Executed (u : ℚ) : AllowPc → Prop
  | .zrem now | .returned now _ => now = u
  | .readClock | .execute _ => False

/-- If the next step of the request is its transaction, then it comes at most a second after its
clock reading, and no transaction of a later reading has run before it. -/
def Prompt (a : ι × ℚ≥0) (s : AllowState ι) : Prop :=
  ∀ now, s.pc a.1 = .execute now →
    ((s.shared.clock + a.2 : ℚ≥0) : ℚ) ≤ now + 1 ∧ ∀ j u, Executed u (s.pc j) → u ≤ now

/-- What has become of the entry of an allowed request: it was evicted by a transaction that read
the clock at least 60 seconds later, it is there, or the key has expired. -/
def EntryFate (s : AllowState ι) (j : ι) (t : ℚ) : Prop :=
  (∃ k u, Executed u (s.pc k) ∧ t + 60 ≤ u) ∨
    ((j, t) ∈ s.shared.zset.entries ∧ t + 61 ≤ s.shared.zset.expiresAt) ∨
    t + 61 < s.shared.clock

section Prompt

variable [DecidableEq ι] {limiter : RedisSlidingWindowRateLimiter} {s : AllowState ι}
  {a : ι × ℚ≥0}

/-- A transaction that has run stays run. -/
theorem executed_step {k : ι} {u : ℚ} (h : Executed u (s.pc k)) :
    Executed u ((limiter.step a s).pc k) := by
  by_cases hka : k = a.1
  · subst hka
    rw [pc_step_self]
    cases hpc : s.pc a.1 with
    | readClock | execute now =>
      rw [hpc] at h
      exact absurd h id
    | zrem now | returned now allowed =>
      rw [hpc] at h
      exact h
  · rw [pc_step_of_ne hka]
    exact h

/-- The fate of an entry that is in the set before the step. -/
theorem entryFate_step (hinv : AllowInv s) {j : ι} {t : ℚ} (hpc : s.pc j = .returned t true)
    (hmem : (j, t) ∈ s.shared.zset.entries) (hexpires : t + 61 ≤ s.shared.zset.expiresAt) :
    EntryFate (limiter.step a s) j t := by
  have ht : t ≤ (s.shared.clock + a.2 : ℚ≥0) := by
    have hreading := hinv.pc j
    rw [hpc] at hreading
    exact hreading.2.trans clock_le_next
  rcases lt_or_ge s.shared.zset.expiresAt (s.shared.clock + a.2 : ℚ≥0) with hexpired | hlive
  · exact Or.inr (Or.inr (hexpires.trans_lt hexpired))
  have hlive : (j, t) ∈ s.shared.zset.live (s.shared.clock + a.2 : ℚ≥0) := by
    rw [live_of_le hlive]
    exact hmem
  cases hpca : s.pc a.1 with
  | readClock | returned now allowed =>
    refine Or.inr (Or.inl ?_)
    rw [zset_step, hpca]
    exact ⟨hmem, hexpires⟩
  | execute now =>
    rcases lt_or_ge (now - 60) t with hyoung | hold
    · -- the transaction counts the entry and renews the key
      refine Or.inr (Or.inl ?_)
      rw [zset_step, hpca, allowStep_execute hinv hpca]
      have hkept : (j, t) ∈ kept now (s.shared.clock + a.2 : ℚ≥0) s.shared.zset :=
        Finset.mem_filter.mpr ⟨hlive, hyoung⟩
      exact ⟨Finset.mem_insert_of_mem hkept, add_le_add_left ht 61⟩
    · -- the transaction evicts it
      refine Or.inl ⟨a.1, now, ?_, by linarith⟩
      rw [pc_step_self, hpca, allowStep_execute hinv hpca]
      dsimp only
      split_ifs <;> rfl
  | zrem now =>
    refine Or.inr (Or.inl ?_)
    rw [zset_step, hpca]
    have hne : j ≠ a.1 := by
      rintro rfl
      rw [hpc] at hpca
      cases hpca
    exact ⟨Finset.mem_filter.mpr ⟨hlive, hne⟩, hexpires⟩

theorem entryFates_step (hlimit : 1 ≤ limiter.limit) (hinv : AllowInv s)
    (hfates : ∀ j t, s.pc j = .returned t true → EntryFate s j t) (j : ι) (t : ℚ)
    (h : (limiter.step a s).pc j = .returned t true) : EntryFate (limiter.step a s) j t := by
  rcases allowed_step hlimit hinv h with hpc | ⟨rfl, hpc, -⟩
  · rcases hfates j t hpc with ⟨k, u, hexecuted, hle⟩ | ⟨hmem, hexpires⟩ | hgone
    · exact Or.inl ⟨k, u, executed_step hexecuted, hle⟩
    · exact entryFate_step hinv hpc hmem hexpires
    · exact Or.inr (Or.inr (hgone.trans_le clock_le_next))
  · -- the entry is new
    have hreading := hinv.pc a.1
    rw [hpc] at hreading
    refine Or.inr (Or.inl ?_)
    rw [zset_step, hpc, allowStep_execute hinv hpc]
    exact ⟨Finset.mem_insert_self _ _, add_le_add_left (hreading.2.trans clock_le_next) 61⟩

omit [DecidableEq ι] in
/-- A prompt transaction finds the entries that it has to count. -/
theorem Prompt.entriesKept (hfates : ∀ j t, s.pc j = .returned t true → EntryFate s j t)
    (h : Prompt a s) : EntriesKept a s := by
  intro now hpc j t hpcj hnow _
  obtain ⟨hsoon, hlatest⟩ := h now hpc
  rcases hfates j t hpcj with ⟨k, u, hexecuted, hle⟩ | ⟨hmem, hexpires⟩ | hgone
  · have := hlatest k u hexecuted
    linarith
  · rw [live_of_le (by linarith)]
    exact hmem
  · have := clock_le_next (s := s) (a := a)
    linarith

end Prompt

/-- **The bound of the Redis limiter**: no window of 60 seconds has more than `limit` allowed
requests, if every transaction still finds the entries of the allowed requests that are less than
60 seconds away from its own clock reading.  So it is when the transactions run in the order of the
clock readings, each at most a second after its own. -/
theorem bounds_windows [DecidableEq ι] (limiter : RedisSlidingWindowRateLimiter)
    (hlimit : 1 ≤ limiter.limit) (clock : ℚ≥0) (schedule : List (ι × ℚ≥0)) :
    (Meets limiter.step EntriesKept (start clock) schedule →
        WindowsBounded limiter (run limiter.step (start clock) schedule)) ∧
      (Meets limiter.step Prompt (start clock) schedule →
        Meets limiter.step EntriesKept (start clock) schedule) := by
  have hstep : ∀ (a : ι × ℚ≥0) (s : AllowState ι),
      (AllowInv s ∧ ∀ j t, s.pc j = .returned t true → EntryFate s j t) →
      AllowInv (limiter.step a s) ∧
        ∀ j t, (limiter.step a s).pc j = .returned t true → EntryFate (limiter.step a s) j t :=
    fun a s h => ⟨h.1.step, entryFates_step hlimit h.1 h.2⟩
  have hstart : AllowInv (start (ι := ι) clock) ∧
      ∀ j t, (start (ι := ι) clock).pc j = .returned t true → EntryFate (start clock) j t :=
    ⟨allowInv_start clock, fun j t h => by cases h⟩
  exact ⟨windowsBounded_run limiter hlimit clock schedule,
    fun h => h.mono_of_invariant hstep (fun a s hs hp => hp.entriesKept hs.2) hstart⟩

/-- Two requests a second apart: the first one is allowed, the second one is not. -/
theorem bounds_windows_inOrder :
    WindowsBounded ⟨1, []⟩ (run (step ⟨1, []⟩) (start 0)
      [(true, 0), (true, 0), (false, 1), (false, 0), (false, 0)]) :=
  (bounds_windows ⟨1, []⟩ (by decide) 0
    [(true, 0), (true, 0), (false, 1), (false, 0), (false, 0)]).1 (by decide +kernel)

/-! ### Four requests -/

/-- Requests `0` and `1` run at second 0; request `3` reads the clock at second 59, request `2` at
second 60, and the transactions of `2` and `3` run in this order. -/
def outOfOrder : List (ℕ × ℚ≥0) :=
  [(0, 0), (0, 0), (1, 0), (1, 0), (3, 59), (2, 1), (2, 0), (3, 0)]

/-- With a limit of two, three requests of one window are allowed. -/
theorem not_windowsBounded_outOfOrder :
    ¬ ∀ (limiter : RedisSlidingWindowRateLimiter) (clock : ℚ≥0) (schedule : List (ℕ × ℚ≥0)),
      1 ≤ limiter.limit → WindowsBounded limiter (run limiter.step (start clock) schedule) := by
  intro hall
  have hbound := hall ⟨2, []⟩ 0 outOfOrder (by decide) 0 {0, 1, 3}
  have hpc : ∀ i ∈ ({0, 1, 3} : Finset ℕ),
      (run (step ⟨2, []⟩) (start 0) outOfOrder).pc i =
        .returned (if i = 3 then 59 else 0) true := by
    decide +kernel
  have hin : ∀ i ∈ ({0, 1, 3} : Finset ℕ),
      AllowedIn (run (step ⟨2, []⟩) (start 0) outOfOrder) 0 i := by
    intro i hi
    refine ⟨_, hpc i hi, ?_, ?_⟩ <;> split_ifs <;> norm_num
  exact absurd (hbound hin) (by decide)

end MarketplacePipeline.RedisSlidingWindowRateLimiter
