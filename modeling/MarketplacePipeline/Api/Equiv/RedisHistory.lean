import MarketplacePipeline.Algorithm.SlidingWindow
import MarketplacePipeline.Api.Equiv.RateLimit
import MarketplacePipeline.Api.Middleware

/-!
# The Redis limiter over a history

The sorted set of a client may have expired, and it still holds what the last request of the client
found too old to matter; so it is compared with the admitted requests as of that last request.
Requests of other clients leave it alone, because the keys of two clients differ.
-/

namespace MarketplacePipeline.RedisSlidingWindowRateLimiter

open Schedule SlidingWindow SortedSet

variable {limiter : RedisSlidingWindowRateLimiter}

/-- The 60 seconds before an instant, without the instant 60 seconds ago. -/
def halfOpenMinute : Window ℚ where
  young now t := decide (now - 60 < t)
  young_self t := by simp
  mono := by
    intro now t now' t' h ht hnow
    have hlt := of_decide_eq_true h
    exact decide_eq_true (by linarith)

theorem redisKey_injective (limiter : RedisSlidingWindowRateLimiter) :
    Function.Injective limiter.redisKey := fun _ _ h => List.append_cancel_left h

/-- The sets tell the admitted requests of every client, as of its last request. -/
def KnowsSets (limiter : RedisSlidingWindowRateLimiter) (now : ℚ)
    (s : ℕ × (Str → SortedSet ℕ)) (times : Str → List ℚ) : Prop :=
  0 ≤ now ∧ ∀ client, ∃ touched ≤ now,
    SameHits touched s.1 (times client) (s.2 (limiter.redisKey client))

theorem knowsSets_start {now : ℚ} (hnow : 0 ≤ now) :
    KnowsSets limiter now (0, fun _ => {}) fun client => timesOf client [] :=
  ⟨hnow, fun _ => ⟨0, hnow, sameHits_start⟩⟩

/-- A new member is fresh for the sets of all clients. -/
theorem SameHits.succ {now : ℚ} {n : ℕ} {hits : List ℚ} {z : SortedSet ℕ}
    (h : SameHits now n hits z) : SameHits now (n + 1) hits z where
  count := h.count
  le := h.le
  nonneg := h.nonneg
  fresh e he := Nat.lt_succ_of_lt (h.fresh e he)
  expires := h.expires

/-- A request of one client leaves the sets of the others alone. -/
theorem allow_snd_of_ne {now : ℚ} {client client' : Str} {n : ℕ} {db : Str → SortedSet ℕ}
    (h : client' ≠ client) :
    (limiter.allow now client n db).2 (limiter.redisKey client') =
      db (limiter.redisKey client') := by
  have hkey : limiter.redisKey client' ≠ limiter.redisKey client :=
    fun heq => h (limiter.redisKey_injective heq)
  unfold allow
  split_ifs with h0
  · rfl
  · dsimp only
    split_ifs
    · exact Function.update_of_ne hkey _ _
    · exact Function.update_of_ne hkey _ _

/-- **The limiter is exact.** -/
theorem exact_allowNext (h0 : 0 < limiter.limit) :
    halfOpenMinute.Exact limiter.limit limiter.allowNext (KnowsSets limiter) := by
  constructor
  case allow_fst =>
    rintro now client t ⟨n, db⟩ times ⟨-, hknows⟩ hle
    obtain ⟨touched, htouched, hsame⟩ := hknows client
    have hiff := allow_fst_iff hsame (htouched.trans hle) h0
    exact Bool.eq_iff_iff.mpr (hiff.trans decide_eq_true_iff.symm)
  case knows_allow =>
    rintro now client t ⟨n, db⟩ times ⟨hnow, hknows⟩ hle
    refine ⟨hnow.trans hle, fun client' => ?_⟩
    unfold allowNext
    dsimp only
    by_cases hclient : client' = client
    · subst hclient
      obtain ⟨touched, htouched, hsame⟩ := hknows client'
      refine ⟨t, le_rfl, ?_⟩
      have hserve := hsame.serve (htouched.trans hle) h0 (hnow.trans hle)
      cases hallow : (limiter.allow t client' n db).1 with
      | true =>
        rw [hallow, if_pos rfl] at hserve
        rw [if_pos rfl, Function.update_self]
        exact hserve
      | false =>
        rw [hallow, if_neg Bool.false_ne_true] at hserve
        rw [if_neg Bool.false_ne_true]
        exact hserve
    · obtain ⟨touched, htouched, hsame⟩ := hknows client'
      refine ⟨touched, htouched.trans hle, ?_⟩
      rw [allow_snd_of_ne hclient]
      have htimes : (if (limiter.allow t client n db).1 then
          Function.update times client (times client ++ [t]) else times) client' =
          times client' := by
        split_ifs
        · exact Function.update_of_ne hclient _ _
        · rfl
      rw [htimes]
      exact hsame.succ

/-- The requests of a client that the transaction of the next request keeps. -/
def keptInMinute (limiter : RedisSlidingWindowRateLimiter) (now : ℚ)
    (s : ℕ × (Str → SortedSet ℕ)) (client : Str) : ℕ :=
  (kept now now (s.2 (limiter.redisKey client))).card

theorem keptInMinute_of_knows {now t : ℚ} {s : ℕ × (Str → SortedSet ℕ)} {times : Str → List ℚ}
    (h : KnowsSets limiter now s times) (hle : now ≤ t) (client : Str) :
    keptInMinute limiter t s client = (times client).countP (halfOpenMinute.young t) := by
  obtain ⟨touched, htouched, hsame⟩ := h.2 client
  exact hsame.card_kept (htouched.trans hle)

end MarketplacePipeline.RedisSlidingWindowRateLimiter
