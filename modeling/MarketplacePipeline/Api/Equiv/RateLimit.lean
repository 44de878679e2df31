import MarketplacePipeline.Api.RateLimit
import Mathlib.Tactic.Linarith

/-!
# The two limiters on the requests of one client

`SameHits` relates what the two limiters keep for a client: as many times after any instant that can
still matter.  A request handled by both keeps the relation as long as they decide alike
(`SameHits.step`), and they decide alike exactly when the times that are 60 seconds old to the point
do not decide (`allow_eq_iff`).
-/

namespace MarketplacePipeline

open Schedule

/-- The decisions of a limiter on the requests of one client, made one after another at these
readings of the clock.  The requests are numbered from `n` on. -/
def decisions {σ : Type} (allow : ℕ → ℚ → σ → Bool × σ) : (n : ℕ) → List ℚ → σ → List Bool
  | _, [], _ => []
  | n, now :: times, s => (allow n now s).1 :: decisions allow (n + 1) times (allow n now s).2

namespace RateLimitMiddleware

section Allow

variable {limit : ℤ} {now : ℚ} {clientIp : Str} {hits : Str → List ℚ}

/-- The times that the window still holds. -/
def recent (now : ℚ) (hits : List ℚ) : List ℚ := hits.filter fun ts => now - 60 ≤ ts

theorem length_recent (now : ℚ) (hits : List ℚ) :
    (recent now hits).length = hits.countP (now - 60 ≤ ·) :=
  List.countP_eq_length_filter.symm

/-- What stays in the window can be counted before or after the others are dropped. -/
theorem countP_recent {t : ℚ} (ht : now - 60 ≤ t) (hits : List ℚ) :
    (recent now hits).countP (t < ·) = hits.countP (t < ·) := by
  rw [recent, List.countP_filter]
  apply List.countP_congr
  intro ts _
  have hle : t < ts → now - 60 ≤ ts := fun h => ht.trans h.le
  simpa only [Bool.and_eq_true, decide_eq_true_eq, and_iff_left_iff_imp] using hle

theorem allow_of_full (h0 : 0 < limit)
    (hfull : limit ≤ (hits clientIp).countP (now - 60 ≤ ·)) :
    allow limit now clientIp hits =
      (false, Function.update hits clientIp (recent now (hits clientIp))) := by
  rw [← length_recent] at hfull
  rw [allow, if_neg (not_le.mpr h0)]
  exact if_pos hfull

theorem allow_of_room (h0 : 0 < limit)
    (hroom : ((hits clientIp).countP (now - 60 ≤ ·) : ℤ) < limit) :
    allow limit now clientIp hits =
      (true, Function.update hits clientIp (recent now (hits clientIp) ++ [now])) := by
  rw [← length_recent] at hroom
  rw [allow, if_neg (not_le.mpr h0)]
  exact if_neg (not_le.mpr hroom)

theorem allow_fst_iff (h0 : 0 < limit) : (allow limit now clientIp hits).1 = true ↔
    ((hits clientIp).countP (now - 60 ≤ ·) : ℤ) < limit := by
  rcases lt_or_ge ((hits clientIp).countP (now - 60 ≤ ·) : ℤ) limit with hroom | hfull
  · rw [allow_of_room h0 hroom]
    exact iff_of_true rfl hroom
  · rw [allow_of_full h0 hfull]
    exact iff_of_false (by simp) (not_lt.mpr hfull)

/-- What the limiter keeps for the client after a request. -/
theorem countP_allow (h0 : 0 < limit) {t : ℚ} (ht : now - 60 ≤ t) :
    ((allow limit now clientIp hits).2 clientIp).countP (t < ·) =
      (hits clientIp).countP (t < ·) +
        if (allow limit now clientIp hits).1 = true ∧ t < now then 1 else 0 := by
  have hrecent := countP_recent ht (hits clientIp)
  rcases lt_or_ge ((hits clientIp).countP (now - 60 ≤ ·) : ℤ) limit with hroom | hfull
  · rw [allow_of_room h0 hroom]
    simp only [Function.update_self, List.countP_append, hrecent, List.countP_singleton]
    simp
  · rw [allow_of_full h0 hfull]
    simp [hrecent]

theorem le_of_mem_allow (h0 : 0 < limit) (hle : ∀ ts ∈ hits clientIp, ts ≤ now) :
    ∀ ts ∈ (allow limit now clientIp hits).2 clientIp, ts ≤ now := by
  have hrecent : ∀ ts ∈ recent now (hits clientIp), ts ≤ now :=
    fun ts hts => hle ts (List.mem_of_mem_filter hts)
  rcases lt_or_ge ((hits clientIp).countP (now - 60 ≤ ·) : ℤ) limit with hroom | hfull
  · rw [allow_of_room h0 hroom]
    intro ts hts
    simp only [Function.update_self, List.mem_append, List.mem_singleton] at hts
    rcases hts with hts | rfl
    · exact hrecent ts hts
    · exact le_rfl
  · rw [allow_of_full h0 hfull]
    intro ts hts
    simp only [Function.update_self] at hts
    exact hrecent ts hts

end Allow

/-- The requests of the client that are younger than 60 seconds leave room for another one, and
those that are at most 60 seconds old do not. -/
def EdgeDecides (limit : ℤ) (clientIp : Str) (now : ℚ) (hits : Str → List ℚ) : Prop :=
  ((hits clientIp).countP (now - 60 < ·) : ℤ) < limit ∧
    limit ≤ (hits clientIp).countP (now - 60 ≤ ·)

instance (limit : ℤ) (clientIp : Str) (now : ℚ) (hits : Str → List ℚ) :
    Decidable (EdgeDecides limit clientIp now hits) :=
  inferInstanceAs (Decidable (_ ∧ _))

end RateLimitMiddleware

/-! ### The Redis limiter alone -/

namespace SortedSet

variable {μ : Type}

/-- The number of entries with a score above `t`. -/
def countAbove (entries : Finset (μ × ℚ)) (t : ℚ) : ℕ := (entries.filter fun e => t < e.2).card

/-- Scores that are not negative are evicted by the upper bound alone. -/
theorem zremrangebyscore_zero {entries : Finset (μ × ℚ)} (hscores : ∀ e ∈ entries, 0 ≤ e.2)
    (max : ℚ) : zremrangebyscore entries 0 max = entries.filter fun e => max < e.2 := by
  apply Finset.filter_congr
  intro e he
  have h0 := hscores e he
  simp [h0]

theorem not_mem_of_fresh {entries : Finset (μ × ℚ)} {member : μ}
    (hfresh : ∀ e ∈ entries, e.1 ≠ member) (score : ℚ) : (member, score) ∉ entries :=
  fun h => hfresh _ h rfl

theorem mem_live {z : SortedSet μ} {time : ℚ} {e : μ × ℚ} (h : e ∈ z.live time) :
    e ∈ z.entries := by
  unfold live at h
  split_ifs at h
  · cases h
  · exact h

theorem live_of_le {z : SortedSet μ} {time : ℚ} (h : time ≤ z.expiresAt) :
    z.live time = z.entries := if_neg (not_lt.mpr h)

/-- Evicting what is older than `s` is not seen above `t`. -/
theorem countAbove_filter {s t : ℚ} (h : s ≤ t) (entries : Finset (μ × ℚ)) :
    countAbove (entries.filter fun e => s < e.2) t = countAbove entries t := by
  unfold countAbove
  rw [Finset.filter_filter]
  congr 1
  apply Finset.filter_congr
  intro e _
  have hlt : t < e.2 → s < e.2 := fun ht => h.trans_lt ht
  simpa using hlt

variable [DecidableEq μ]

theorem zrem_of_fresh {entries : Finset (μ × ℚ)} {member : μ}
    (hfresh : ∀ e ∈ entries, e.1 ≠ member) : zrem entries member = entries :=
  Finset.filter_true_of_mem hfresh

theorem zadd_of_fresh {entries : Finset (μ × ℚ)} {member : μ}
    (hfresh : ∀ e ∈ entries, e.1 ≠ member) (score : ℚ) :
    zadd entries member score = insert (member, score) entries := by
  rw [zadd, zrem_of_fresh hfresh]

theorem zrem_insert {entries : Finset (μ × ℚ)} {member : μ}
    (hfresh : ∀ e ∈ entries, e.1 ≠ member) (score : ℚ) :
    zrem (insert (member, score) entries) member = entries := by
  have hgone : ¬ (member, score).1 ≠ member := by simp
  rw [zrem, Finset.filter_insert, if_neg hgone]
  exact zrem_of_fresh hfresh

theorem countAbove_insert {entries : Finset (μ × ℚ)} {member : μ}
    (hfresh : ∀ e ∈ entries, e.1 ≠ member) (score t : ℚ) :
    countAbove (insert (member, score) entries) t =
      countAbove entries t + if t < score then 1 else 0 := by
  have hnew : (member, score) ∉ entries.filter fun e => t < e.2 :=
    fun h => not_mem_of_fresh hfresh score (Finset.mem_of_mem_filter _ h)
  unfold countAbove
  rw [Finset.filter_insert]
  split_ifs
  · rw [Finset.card_insert_of_notMem hnew]
  · rfl

end SortedSet

namespace RedisSlidingWindowRateLimiter

open SortedSet

/-! ### The Redis limiter -/

section Transaction

variable {μ : Type} {member : μ} {now time : ℚ} {z : SortedSet μ}

/-- The entries that a transaction keeps. -/
def kept (now time : ℚ) (z : SortedSet μ) : Finset (μ × ℚ) :=
  (z.live time).filter fun e => now - 60 < e.2

theorem card_kept (now time : ℚ) (z : SortedSet μ) :
    (kept now time z).card = countAbove (z.live time) (now - 60) := rfl

theorem mem_kept {e : μ × ℚ} (h : e ∈ kept now time z) : e ∈ z.entries :=
  mem_live (Finset.mem_of_mem_filter _ h)

variable [DecidableEq μ] (hscores : ∀ e ∈ z.entries, 0 ≤ e.2)
  (hfresh : ∀ e ∈ z.entries, e.1 ≠ member)

include hscores hfresh

/-- The spec of a transaction. -/
theorem transaction_eq : transaction member now time z =
    ((kept now time z).card + 1, ⟨insert (member, now) (kept now time z), time + 61⟩) := by
  have hevict : zremrangebyscore (z.live time) 0 (now - 60) = kept now time z :=
    zremrangebyscore_zero (fun e he => hscores e (mem_live he)) _
  have hkept : ∀ e ∈ kept now time z, e.1 ≠ member := fun e he => hfresh e (mem_kept he)
  rw [transaction]
  simp only [hevict, zadd_of_fresh hkept]
  rw [Finset.card_insert_of_notMem (not_mem_of_fresh hkept now)]

end Transaction

section Allow

variable {μ : Type} [DecidableEq μ] {limiter : RedisSlidingWindowRateLimiter} {now : ℚ}
  {clientKey : Str} {member : μ} {db : Str → SortedSet μ}

theorem rollback_transaction {z : SortedSet μ} (hfresh : ∀ e ∈ z.entries, e.1 ≠ member) :
    rollback member now ⟨insert (member, now) (kept now now z), now + 61⟩ =
      ⟨kept now now z, now + 61⟩ := by
  have hlive : SortedSet.live ⟨insert (member, now) (kept now now z), now + 61⟩ now =
      insert (member, now) (kept now now z) := live_of_le (by linarith)
  rw [rollback, hlive, zrem_insert fun e he => hfresh e (mem_kept he)]

variable (hscores : ∀ e ∈ (db (limiter.redisKey clientKey)).entries, 0 ≤ e.2)
  (hfresh : ∀ e ∈ (db (limiter.redisKey clientKey)).entries, e.1 ≠ member)
  (h0 : 0 < limiter.limit)

include hscores hfresh h0

theorem allow_of_full
    (hfull : limiter.limit ≤ (kept now now (db (limiter.redisKey clientKey))).card) :
    limiter.allow now clientKey member db =
      (false, Function.update db (limiter.redisKey clientKey)
        ⟨kept now now (db (limiter.redisKey clientKey)), now + 61⟩) := by
  rw [allow, if_neg (not_le.mpr h0)]
  simp only [transaction_eq hscores hfresh, rollback_transaction hfresh]
  exact if_pos (by push_cast; omega)

theorem allow_of_room
    (hroom : ((kept now now (db (limiter.redisKey clientKey))).card : ℤ) < limiter.limit) :
    limiter.allow now clientKey member db =
      (true, Function.update db (limiter.redisKey clientKey)
        ⟨insert (member, now) (kept now now (db (limiter.redisKey clientKey))), now + 61⟩) := by
  rw [allow, if_neg (not_le.mpr h0)]
  simp only [transaction_eq hscores hfresh]
  exact if_neg (by push_cast; omega)

end Allow

/-! ### Both limiters -/

/-- After a request at `now`, the two limiters have kept as many times of the client, above every
instant that a later request can ask about. -/
structure SameHits (now : ℚ) (n : ℕ) (hits : List ℚ) (z : SortedSet ℕ) : Prop where
  count : ∀ t, now - 60 ≤ t → countAbove z.entries t = hits.countP (t < ·)
  le : ∀ ts ∈ hits, ts ≤ now
  nonneg : ∀ e ∈ z.entries, 0 ≤ e.2
  fresh : ∀ e ∈ z.entries, e.1 < n
  expires : z.entries = ∅ ∨ now + 61 ≤ z.expiresAt

section Both

variable {limiter : RedisSlidingWindowRateLimiter} {client : Str} {now later : ℚ} {n : ℕ}
  {hits : Str → List ℚ} {db : Str → SortedSet ℕ}

theorem sameHits_start : SameHits 0 0 [] {} :=
  ⟨fun _ _ => rfl, by simp, by simp, by simp, Or.inl rfl⟩

/-- Only the times that a later request can ask about matter. -/
theorem SameHits.congr {hits hits' : List ℚ} {z : SortedSet ℕ} (h : SameHits now n hits z)
    (hcount : ∀ t, now - 60 ≤ t → hits'.countP (t < ·) = hits.countP (t < ·))
    (hle : ∀ ts ∈ hits', ts ≤ now) : SameHits now n hits' z where
  count t ht := by rw [h.count t ht, hcount t ht]
  le := hle
  nonneg := h.nonneg
  fresh := h.fresh
  expires := h.expires

/-- What the transaction of the next request keeps are the hits of its window. -/
theorem SameHits.countAbove_kept {hits : List ℚ} {z : SortedSet ℕ} (h : SameHits now n hits z)
    (hle : now ≤ later) {t : ℚ} (ht : later - 60 ≤ t) :
    countAbove (kept later later z) t = hits.countP (t < ·) := by
  have hnow : now - 60 ≤ t := by linarith
  rw [kept, countAbove_filter ht]
  by_cases hexpired : z.expiresAt < later
  · -- the key has expired, so 61 seconds have passed and no hit is left either
    have hlive : z.live later = ∅ := if_pos hexpired
    rw [hlive]
    rcases h.expires with hempty | hexpires
    · rw [← h.count t hnow, hempty]
    · have hnone : hits.countP (t < ·) = 0 := by
        rw [List.countP_eq_zero]
        intro ts hts hlt
        have hts' := h.le ts hts
        have hlt' : t < ts := of_decide_eq_true hlt
        linarith
      rw [hnone]
      rfl
  · rw [live_of_le (not_lt.mp hexpired), h.count t hnow]

theorem SameHits.card_kept {hits : List ℚ} {z : SortedSet ℕ} (h : SameHits now n hits z)
    (hle : now ≤ later) : (kept later later z).card = hits.countP (later - 60 < ·) := by
  have hall : countAbove (kept later later z) (later - 60) = (kept later later z).card := by
    rw [RedisSlidingWindowRateLimiter.card_kept, kept, countAbove_filter le_rfl]
  rw [← hall, h.countAbove_kept hle le_rfl]

variable (h : SameHits now n (hits client) (db (limiter.redisKey client))) (hle : now ≤ later)
  (h0 : 0 < limiter.limit)

include h hle h0

theorem allow_fst_iff : (limiter.allow later client n db).1 = true ↔
    ((hits client).countP (later - 60 < ·) : ℤ) < limiter.limit := by
  have hfresh : ∀ e ∈ (db (limiter.redisKey client)).entries, e.1 ≠ n :=
    fun e he => (h.fresh e he).ne
  rw [← h.card_kept hle]
  rcases lt_or_ge ((kept later later (db (limiter.redisKey client))).card : ℤ) limiter.limit with
    hroom | hfull
  · rw [allow_of_room h.nonneg hfresh h0 hroom]
    exact iff_of_true rfl hroom
  · rw [allow_of_full h.nonneg hfresh h0 hfull]
    exact iff_of_false (by simp) (not_lt.mpr hfull)

/-- The limiters decide alike exactly when the hits that are 60 seconds old to the point do not
decide. -/
theorem allow_eq_iff :
    (RateLimitMiddleware.allow limiter.limit later client hits).1 =
        (limiter.allow later client n db).1 ↔
      ¬ RateLimitMiddleware.EdgeDecides limiter.limit client later hits := by
  have hmem : (RateLimitMiddleware.allow limiter.limit later client hits).1 = true ↔ _ :=
    RateLimitMiddleware.allow_fst_iff h0
  have hredis := allow_fst_iff h hle h0
  have hcount : (hits client).countP (later - 60 < ·) ≤
      (hits client).countP (later - 60 ≤ ·) := by
    apply List.countP_mono_left
    intro ts _ hts
    exact decide_eq_true (of_decide_eq_true hts).le
  rw [Bool.eq_iff_iff, hmem, hredis, RateLimitMiddleware.EdgeDecides]
  omega

/-- The set after a request holds the times of the client and, if it is allowed, its own. -/
theorem SameHits.serve (hlater : 0 ≤ later) : SameHits later (n + 1)
    (if (limiter.allow later client n db).1 then hits client ++ [later] else hits client)
    ((limiter.allow later client n db).2 (limiter.redisKey client)) := by
  have hfresh : ∀ e ∈ (db (limiter.redisKey client)).entries, e.1 ≠ n :=
    fun e he => (h.fresh e he).ne
  have hkept : ∀ e ∈ kept later later (db (limiter.redisKey client)), e.1 ≠ n :=
    fun e he => hfresh e (mem_kept he)
  have hhits : ∀ ts ∈ hits client, ts ≤ later := fun ts hts => (h.le ts hts).trans hle
  rcases lt_or_ge ((kept later later (db (limiter.redisKey client))).card : ℤ) limiter.limit with
    hroom | hfull
  · rw [allow_of_room h.nonneg hfresh h0 hroom, if_pos rfl]
    dsimp only
    rw [Function.update_self]
    refine ⟨fun t ht => ?_, ?_, ?_, ?_, Or.inr le_rfl⟩
    · rw [countAbove_insert hkept, h.countAbove_kept hle ht, List.countP_append,
        List.countP_singleton]
      simp
    · simpa [or_imp, forall_and] using hhits
    · simp only [Finset.mem_insert]
      rintro e (rfl | he)
      · exact hlater
      · exact h.nonneg e (mem_kept he)
    · simp only [Finset.mem_insert]
      rintro e (rfl | he)
      · exact Nat.lt_succ_self n
      · exact (h.fresh e (mem_kept he)).trans (Nat.lt_succ_self n)
  · rw [allow_of_full h.nonneg hfresh h0 hfull, if_neg Bool.false_ne_true]
    dsimp only
    rw [Function.update_self]
    refine ⟨fun t ht => h.countAbove_kept hle ht, hhits, ?_, ?_, Or.inr le_rfl⟩
    · exact fun e he => h.nonneg e (mem_kept he)
    · exact fun e he => (h.fresh e (mem_kept he)).trans (Nat.lt_succ_self n)

/-- A request on which the limiters agree. -/
theorem SameHits.step (hlater : 0 ≤ later)
    (hsame : (RateLimitMiddleware.allow limiter.limit later client hits).1 =
      (limiter.allow later client n db).1) :
    SameHits later (n + 1) ((RateLimitMiddleware.allow limiter.limit later client hits).2 client)
      ((limiter.allow later client n db).2 (limiter.redisKey client)) := by
  refine (h.serve hle h0 hlater).congr (fun t ht => ?_) ?_
  · have hcount : ((RateLimitMiddleware.allow limiter.limit later client hits).2 client).countP
        (t < ·) = _ := RateLimitMiddleware.countP_allow h0 ht
    rw [hcount, hsame]
    cases (limiter.allow later client n db).1 with
    | true => simp [List.countP_append, List.countP_singleton]
    | false => simp
  · exact RateLimitMiddleware.le_of_mem_allow h0 fun ts hts => (h.le ts hts).trans hle

end Both

/-- The limiters decide alike on all requests that follow. -/
theorem decisions_eq_iff {limiter : RedisSlidingWindowRateLimiter} {client : Str}
    (h0 : 0 < limiter.limit) {times : List ℚ} {now : ℚ} {n : ℕ} {hits : Str → List ℚ}
    {db : Str → SortedSet ℕ} (h : SameHits now n (hits client) (db (limiter.redisKey client)))
    (hnow : 0 ≤ now) (htimes : (now :: times).Pairwise (· ≤ ·)) :
    decisions (fun _ now => RateLimitMiddleware.allow limiter.limit now client) n times hits =
        decisions (fun n now => limiter.allow now client n) n times db ↔
      Meets (fun now hits => (RateLimitMiddleware.allow limiter.limit now client hits).2)
        (fun now hits => ¬ RateLimitMiddleware.EdgeDecides limiter.limit client now hits)
        hits times := by
  induction times generalizing now n hits db with
  | nil => simp [decisions]
  | cons later times ih =>
    have hle : now ≤ later := List.rel_of_pairwise_cons htimes (by simp)
    have hrest : (later :: times).Pairwise (· ≤ ·) := htimes.of_cons
    have hlater : 0 ≤ later := hnow.trans hle
    rw [decisions, decisions, List.cons.injEq, meets_cons, ← allow_eq_iff h hle h0]
    refine and_congr_right fun hsame => ?_
    exact ih (h.step hle h0 hlater hsame) hlater hrest

theorem decisions_of_limit_nonpos {limiter : RedisSlidingWindowRateLimiter} {client : Str}
    (h0 : limiter.limit ≤ 0) {times : List ℚ} {n : ℕ} {hits : Str → List ℚ}
    {db : Str → SortedSet ℕ} :
    decisions (fun _ now => RateLimitMiddleware.allow limiter.limit now client) n times hits =
      decisions (fun n now => limiter.allow now client n) n times db := by
  induction times generalizing n with
  | nil => rfl
  | cons now times ih =>
    rw [decisions, decisions, RateLimitMiddleware.allow, if_pos h0, allow, if_pos h0]
    rw [ih]

end RedisSlidingWindowRateLimiter

/-- **The in-memory and the Redis limiter agree** on every request of a client exactly when at no
request the hits that are 60 seconds old to the point decide. -/
theorem same_decisions_iff (limiter : RedisSlidingWindowRateLimiter) (client : Str)
    (times : List ℚ) (htimes : (0 :: times).Pairwise (· ≤ ·)) :
    decisions (fun _ now => RateLimitMiddleware.allow limiter.limit now client) 0 times
        (fun _ => []) =
        decisions (fun n now => limiter.allow now client n) 0 times (fun _ => {}) ↔
      Meets (fun now hits => (RateLimitMiddleware.allow limiter.limit now client hits).2)
        (fun now hits => ¬ RateLimitMiddleware.EdgeDecides limiter.limit client now hits)
        (fun _ => []) times := by
  rcases lt_or_ge 0 limiter.limit with h0 | h0
  · exact RedisSlidingWindowRateLimiter.decisions_eq_iff h0
      RedisSlidingWindowRateLimiter.sameHits_start le_rfl htimes
  · refine iff_of_true (RedisSlidingWindowRateLimiter.decisions_of_limit_nonpos h0) ?_
    rw [meets_iff]
    intro pre now post _ hedge
    have hlt := hedge.1
    omega

/-- A limit of one, and requests 59 seconds apart. -/
theorem same_decisions_iff_early :
    decisions (fun _ now => RateLimitMiddleware.allow 1 now []) 0 [0, 59] (fun _ => []) =
        decisions (fun n now => RedisSlidingWindowRateLimiter.allow ⟨1, []⟩ now [] n) 0 [0, 59]
          (fun _ => {}) ↔
      Meets (fun now hits => (RateLimitMiddleware.allow 1 now [] hits).2)
        (fun now hits => ¬ RateLimitMiddleware.EdgeDecides 1 [] now hits) (fun _ => []) [0, 59] :=
  same_decisions_iff ⟨1, []⟩ [] [0, 59] (by decide +kernel)

/-- A limit of one, and requests that are exactly 60 seconds apart. -/
theorem not_same_decisions :
    ¬ ∀ (limiter : RedisSlidingWindowRateLimiter) (client : Str) (times : List ℚ),
      (0 :: times).Pairwise (· ≤ ·) →
      decisions (fun _ now => RateLimitMiddleware.allow limiter.limit now client) 0 times
          (fun _ => []) =
        decisions (fun n now => limiter.allow now client n) 0 times (fun _ => {}) := by
  intro hall
  have h := hall ⟨1, []⟩ [] [0, 60] (by decide +kernel)
  exact absurd h (by decide +kernel)

end MarketplacePipeline
