import MarketplacePipeline.Collector.OzonCatalogCollector
import MarketplacePipeline.Algorithm.KeepFirst
import Mathlib.Data.Set.Card
import Mathlib.Data.Set.Finite.Lattice

/-!
# Correctness of `OzonCatalogCollector.collect`

`fetched fetchPage n` is the concatenation of the batches of pages `1 .. n` and `distinct` keeps
the first product of every id.  The loop invariant (`LoopInv`) says that before page `n + 1` the
loop holds the first `target` elements of `distinct (fetched fetchPage n)`; `addBatch_spec` is the
inner loop's part of it.  From it `collectLoop_exit` reads off how the loop can end, and
`collectLoop_none` what a loop that does not end has seen.
-/

namespace MarketplacePipeline.OzonCatalogCollector

open KeepFirst

/-! ### The specification -/

/-- The products of page `page`, when it was fetched. -/
def batchAt (fetchPage : Nat → FetchOutcome) (page : Nat) : List Product :=
  match fetchPage page with
  | .batch batch => batch
  | _ => []

/-- The first product of every id. -/
def distinct (products : List Product) : List Product := keepFirst Product.id products

/-- Page numbers `1 .. n`. -/
def pagesTo (n : Nat) : List Nat := (List.range n).map (· + 1)

@[simp] theorem pagesTo_zero : pagesTo 0 = [] := rfl

theorem pagesTo_succ (n : Nat) : pagesTo (n + 1) = pagesTo n ++ [n + 1] := by
  simp [pagesTo, List.range_succ]

theorem mem_pagesTo {n page : Nat} : page ∈ pagesTo n ↔ 1 ≤ page ∧ page ≤ n := by
  simp only [pagesTo, List.mem_map, List.mem_range]
  constructor
  · rintro ⟨i, hi, rfl⟩
    omega
  · rintro ⟨h1, hn⟩
    exact ⟨page - 1, by omega, by omega⟩

theorem getLast?_pagesTo_succ (n : Nat) : (pagesTo (n + 1)).getLast? = some (n + 1) := by
  rw [pagesTo_succ, List.getLast?_concat]

/-- The batches of pages `1 .. n`, one after another. -/
def fetched (fetchPage : Nat → FetchOutcome) (n : Nat) : List Product :=
  (pagesTo n).flatMap (batchAt fetchPage)

theorem fetched_succ (fetchPage : Nat → FetchOutcome) (n : Nat) :
    fetched fetchPage (n + 1) = fetched fetchPage n ++ batchAt fetchPage (n + 1) := by
  rw [fetched, pagesTo_succ, List.flatMap_append, List.flatMap_singleton, fetched]

/-- Pages `1 .. n` are non-empty batches that leave the loop short of its target: the loop goes on
to page `n + 1`. -/
def GoesOn (fetchPage : Nat → FetchOutcome) (target : Int) (n : Nat) : Prop :=
  ((distinct (fetched fetchPage n)).length : Int) < target ∧
    ∀ page, 1 ≤ page → page ≤ n → ∃ batch, fetchPage page = .batch batch ∧ batch ≠ []

/-! ### The inner loop -/

theorem prefix_distinct_append (xs ys : List Product) : distinct xs <+: distinct (xs ++ ys) :=
  keepFirst_prefix _ xs ys

/-- The inner loop, entered below the target with the distinct products of what was fetched so
far, leaves the first `target` distinct products; below the target the seen ids are up to date. -/
theorem addBatch_spec {target : Int} (batch : List Product) :
    ∀ (xs : List Product) (seenIds : Finset Str),
      ((distinct xs).length : Int) < target → seenIds = (xs.map Product.id).toFinset →
      (addBatch target batch (distinct xs) seenIds).1 =
          (distinct (xs ++ batch)).take target.toNat ∧
        (((addBatch target batch (distinct xs) seenIds).1.length : Int) < target →
          (addBatch target batch (distinct xs) seenIds).2 =
            ((xs ++ batch).map Product.id).toFinset) := by
  induction batch with
  | nil =>
    intro xs seenIds hlt hseen
    rw [List.append_nil, List.take_of_length_le (by omega)]
    exact ⟨rfl, fun _ => hseen⟩
  | cons product batch ih =>
    intro xs seenIds hlt hseen
    have hmem : product.id ∈ seenIds ↔ product.id ∈ xs.map Product.id := by
      rw [hseen, List.mem_toFinset]
    have hshift : xs ++ product :: batch = xs ++ [product] ++ batch := by simp
    have hone := keepFirst_concat Product.id xs product
    rw [addBatch]
    by_cases hin : product.id ∈ seenIds
    · -- a duplicate: the distinct products do not change
      rw [if_pos (hmem.mp hin)] at hone
      have hids : seenIds = ((xs ++ [product]).map Product.id).toFinset := by
        rw [List.map_append, List.toFinset_append, ← hseen]
        simpa using (Finset.insert_eq_self.mpr hin).symm
      rw [if_pos hin, hshift]
      have := ih (xs ++ [product]) seenIds (by rw [distinct, hone]; exact hlt) hids
      rwa [distinct, hone] at this
    · -- a new id: the product is appended
      rw [if_neg (fun h => hin (hmem.mpr h))] at hone
      have hids : insert product.id seenIds = ((xs ++ [product]).map Product.id).toFinset := by
        rw [List.map_append, List.toFinset_append, ← hseen]
        simp
      have hnew : distinct xs ++ [product] = distinct (xs ++ [product]) := hone.symm
      rw [if_neg hin, hnew, hshift]
      have hlen : (distinct (xs ++ [product])).length = (distinct xs).length + 1 := by
        rw [← hnew, List.length_append, List.length_singleton]
      by_cases htarget : target ≤ ((distinct (xs ++ [product])).length : Int)
      · -- the target is reached: what follows in the batch cannot change the first `target`
        rw [if_pos htarget]
        have hlen' : (distinct (xs ++ [product])).length = target.toNat := by omega
        obtain ⟨rest, hrest⟩ := prefix_distinct_append (xs ++ [product]) batch
        refine ⟨?_, fun h => absurd htarget (not_le.mpr h)⟩
        rw [← hrest, ← hlen', List.take_left]
      · rw [if_neg htarget]
        exact ih (xs ++ [product]) _ (by omega) hids

/-! ### The outer loop -/

/-- The loop invariant before page `n + 1`: the loop holds the first `target` distinct products
of pages `1 .. n` and asked for exactly these pages; as long as the target is not reached they were
non-empty batches and the seen ids are theirs. -/
structure LoopInv (fetchPage : Nat → FetchOutcome) (target : Int) (n : Nat)
    (products : List Product) (seenIds : Finset Str) : Prop where
  products_eq : products = (distinct (fetched fetchPage n)).take target.toNat
  seen_eq : (products.length : Int) < target →
    seenIds = ((fetched fetchPage n).map Product.id).toFinset
  batches : ∀ page, 1 ≤ page → page ≤ n → ∃ batch, fetchPage page = .batch batch ∧ batch ≠ []
  below : ∀ m, m < n → ((distinct (fetched fetchPage m)).length : Int) < target

section Loop

variable {fetchPage : Nat → FetchOutcome} {target : Int} {n : Nat} {products : List Product}
  {seenIds : Finset Str}

theorem loopInv_start : LoopInv fetchPage target 0 [] ∅ :=
  ⟨by simp [fetched, distinct], fun _ => by simp [fetched], fun _ h1 h2 => by omega,
    fun _ h => by omega⟩

/-- Below the target the loop holds all the distinct products of the pages so far. -/
theorem LoopInv.products_eq_of_lt (h : LoopInv fetchPage target n products seenIds)
    (hlt : (products.length : Int) < target) : products = distinct (fetched fetchPage n) := by
  have heq := h.products_eq
  have hlen : (distinct (fetched fetchPage n)).length ≤ target.toNat := by
    by_contra hgt
    rw [heq, List.length_take] at hlt
    omega
  rwa [List.take_of_length_le hlen] at heq

theorem LoopInv.goesOn (h : LoopInv fetchPage target n products seenIds)
    (hlt : (products.length : Int) < target) : GoesOn fetchPage target n :=
  ⟨by rw [← h.products_eq_of_lt hlt]; exact hlt, h.batches⟩

/-- One page further: the step lemma of the outer loop. -/
theorem LoopInv.step (h : LoopInv fetchPage target n products seenIds)
    (hlt : (products.length : Int) < target) {batch : List Product}
    (hpage : fetchPage (n + 1) = .batch batch) (hne : batch ≠ []) :
    LoopInv fetchPage target (n + 1) (addBatch target batch products seenIds).1
      (addBatch target batch products seenIds).2 := by
  have hall := h.products_eq_of_lt hlt
  have hfetched : fetched fetchPage (n + 1) = fetched fetchPage n ++ batch := by
    rw [fetched_succ, batchAt, hpage]
  rw [hall] at hlt ⊢
  obtain ⟨hproducts, hseen⟩ := addBatch_spec batch (fetched fetchPage n) seenIds hlt
    (h.seen_eq (by rw [hall]; exact hlt))
  refine ⟨by rw [hproducts, hfetched], by rw [hfetched]; exact hseen, ?_, ?_⟩
  · intro page h1 hn
    rcases Nat.lt_or_eq_of_le hn with hn | rfl
    · exact h.batches page h1 (by omega)
    · exact ⟨batch, hpage, hne⟩
  · intro m hm
    rcases Nat.lt_or_eq_of_le (Nat.le_of_lt_succ hm) with hm | rfl
    · exact h.below m hm
    · exact hlt

/-- How the loop can end: with the target reached after page `n`, or at page `n + 1`, with an empty
batch or an exception, after pages `1 .. n` left it short of the target. -/
inductive ExitAt (fetchPage : Nat → FetchOutcome) (target : Int) : LoopExit → Nat → Prop
  | reached {n : Nat} : target ≤ (distinct (fetched fetchPage n)).length →
      (∀ m, m < n → GoesOn fetchPage target m) →
      (∀ page, 1 ≤ page → page ≤ n → ∃ batch, fetchPage page = .batch batch) →
      ExitAt fetchPage target
        (.finished ((distinct (fetched fetchPage n)).take target.toNat) false none) n
  | empty {n : Nat} : GoesOn fetchPage target n → fetchPage (n + 1) = .batch [] →
      ExitAt fetchPage target (.finished (distinct (fetched fetchPage n)) false none) (n + 1)
  | failed {n : Nat} {text : Str} : GoesOn fetchPage target n →
      fetchPage (n + 1) = .failed text →
      ExitAt fetchPage target (.finished (distinct (fetched fetchPage n)) true (some text)) (n + 1)
  | quotaExhausted {n : Nat} {text : Str} : GoesOn fetchPage target n →
      fetchPage (n + 1) = .quotaExhausted text →
      ExitAt fetchPage target (.raised ⟨.proxyQuotaExhausted, text⟩) (n + 1)

theorem LoopInv.exit_reached (h : LoopInv fetchPage target n products seenIds)
    (hge : ¬ (products.length : Int) < target) :
    ExitAt fetchPage target (.finished products false none) n := by
  have heq := h.products_eq
  subst heq
  refine .reached ?_ (fun m hm => ⟨h.below m hm, fun page h1 h2 => h.batches page h1 (by omega)⟩)
    fun page h1 hn => (h.batches page h1 hn).imp fun _ hb => hb.1
  rw [List.length_take] at hge
  omega

/-- Every exit of the loop is one of `ExitAt`, and the requested pages are `1, 2, 3, ...`. -/
theorem collectLoop_exit (fuel : Nat) :
    ∀ {n : Nat} {products : List Product} {seenIds : Finset Str} {exit : LoopExit}
      {requested : List Nat}, LoopInv fetchPage target n products seenIds →
      collectLoop fetchPage target fuel (n + 1) products seenIds (pagesTo n) =
        some (exit, requested) →
      ∃ k, requested = pagesTo k ∧ ExitAt fetchPage target exit k := by
  -- on the fuel; `LoopInv` says what the variables of the loop hold before each page
  induction fuel with
  | zero =>
    intro n products seenIds exit requested hinv h
    rw [collectLoop] at h
    by_cases hlt : (products.length : Int) < target
    · simp [hlt] at h
    · simp only [hlt, ↓reduceIte, Option.some.injEq, Prod.mk.injEq] at h
      obtain ⟨rfl, rfl⟩ := h
      exact ⟨n, rfl, hinv.exit_reached hlt⟩
  | succ fuel ih =>
    intro n products seenIds exit requested hinv h
    rw [collectLoop] at h
    by_cases hlt : (products.length : Int) < target
    · simp only [hlt, ↓reduceIte, ← pagesTo_succ] at h
      split at h
      · rename_i text hpage
        simp only [Option.some.injEq, Prod.mk.injEq] at h
        obtain ⟨rfl, rfl⟩ := h
        exact ⟨n + 1, rfl, .quotaExhausted (hinv.goesOn hlt) hpage⟩
      · rename_i text hpage
        simp only [Option.some.injEq, Prod.mk.injEq] at h
        obtain ⟨rfl, rfl⟩ := h
        rw [hinv.products_eq_of_lt hlt]
        exact ⟨n + 1, rfl, .failed (hinv.goesOn hlt) hpage⟩
      · rename_i hpage
        simp only [Option.some.injEq, Prod.mk.injEq] at h
        obtain ⟨rfl, rfl⟩ := h
        rw [hinv.products_eq_of_lt hlt]
        exact ⟨n + 1, rfl, .empty (hinv.goesOn hlt) hpage⟩
      · rename_i batch hne hpage
        exact ih (hinv.step hlt hpage hne) h
    · simp only [hlt, ↓reduceIte, Option.some.injEq, Prod.mk.injEq] at h
      obtain ⟨rfl, rfl⟩ := h
      exact ⟨n, rfl, hinv.exit_reached hlt⟩

/-- A loop that runs out of fuel could have gone on from every page it saw. -/
theorem collectLoop_none (fuel : Nat) :
    ∀ {n : Nat} {products : List Product} {seenIds : Finset Str},
      LoopInv fetchPage target n products seenIds →
      collectLoop fetchPage target fuel (n + 1) products seenIds (pagesTo n) = none →
      GoesOn fetchPage target (n + fuel) := by
  induction fuel with
  | zero =>
    intro n products seenIds hinv h
    rw [collectLoop] at h
    by_cases hlt : (products.length : Int) < target
    · exact hinv.goesOn hlt
    · simp [hlt] at h
  | succ fuel ih =>
    intro n products seenIds hinv h
    rw [collectLoop] at h
    by_cases hlt : (products.length : Int) < target
    · simp only [hlt, ↓reduceIte, ← pagesTo_succ] at h
      split at h
      · cases h
      · cases h
      · cases h
      · rename_i batch hne hpage
        rw [show n + (fuel + 1) = n + 1 + fuel by omega]
        exact ih (hinv.step hlt hpage hne) h
    · simp [hlt] at h

end Loop

/-! ### `collect` -/

/-- The last page that the call asked for had this outcome. -/
def EndedBy (fetchPage : Nat → FetchOutcome) (c : Collection) (outcome : FetchOutcome) : Prop :=
  ∃ page, c.requested.getLast? = some page ∧ fetchPage page = outcome

theorem sliceTo_take (products : List Product) (target : Int) :
    sliceTo (products.take target.toNat) target = products.take target.toNat := by
  by_cases h : 0 ≤ target
  · rw [sliceTo_of_nonneg _ h, List.take_take, min_self]
  · rw [show target.toNat = 0 by omega, List.take_zero, sliceTo_nil]

theorem sliceTo_of_length_lt {products : List Product} {target : Int}
    (h : (products.length : Int) < target) : sliceTo products target = products := by
  rw [sliceTo_of_nonneg _ (by omega), List.take_of_length_le (by omega)]

section Collect

variable {fetchPage : Nat → FetchOutcome} {ozonHttp : Bool} {target : Int} {fuel : Nat}
  {c : Collection}

/-- What a call of `collect` that ended has done, by the exit of its loop. -/
theorem collect_exit (h : collect fetchPage ozonHttp target fuel = some c) :
    ∃ exit n, ExitAt fetchPage target exit n ∧ c.requested = pagesTo n ∧
      c.outcome = match exit with
        | .raised exc => .error exc
        | .finished products degraded errorMessage =>
          .ok (buildResult target products degraded errorMessage) := by
  rw [collect] at h
  split at h
  · cases h
  · rename_i exc requested hloop
    obtain rfl := Option.some.inj h
    obtain ⟨n, rfl, hexit⟩ := collectLoop_exit fuel loopInv_start hloop
    exact ⟨_, n, hexit, rfl, rfl⟩
  · rename_i products degraded errorMessage requested hloop
    obtain rfl := Option.some.inj h
    obtain ⟨n, rfl, hexit⟩ := collectLoop_exit fuel loopInv_start hloop
    exact ⟨_, n, hexit, rfl, rfl⟩

/-- A call that would need more page fetches could have gone on from every page it saw. -/
theorem collect_none (h : collect fetchPage ozonHttp target fuel = none) :
    GoesOn fetchPage target fuel := by
  rw [collect] at h
  split at h
  · rename_i hloop
    simpa using collectLoop_none fuel loopInv_start hloop
  · cases h
  · cases h

theorem endedBy_succ_iff {n : Nat} (hc : c.requested = pagesTo (n + 1)) {outcome : FetchOutcome} :
    EndedBy fetchPage c outcome ↔ fetchPage (n + 1) = outcome := by
  simp [EndedBy, hc, getLast?_pagesTo_succ]

/-- A loop that can go on from a page could go on from every page before it. -/
theorem GoesOn.of_le {m n : Nat} (h : GoesOn fetchPage target n) (hm : m ≤ n) :
    GoesOn fetchPage target m := by
  induction n, hm using Nat.le_induction with
  | base => exact h
  | succ n _ ih =>
    apply ih
    refine ⟨lt_of_le_of_lt ?_ h.1, fun page hone hpage => h.2 page hone (by omega)⟩
    rw [fetched_succ]
    exact_mod_cast (prefix_distinct_append _ _).length_le

/-- A loop cannot go on from where it ended. -/
theorem ExitAt.not_goesOn {exit : LoopExit} {n : Nat} (h : ExitAt fetchPage target exit n) :
    ¬ GoesOn fetchPage target n := by
  intro hgo
  cases h with
  | reached htarget => exact absurd hgo.1 (by omega)
  | @empty n _ hpage | @failed n _ _ hpage | @quotaExhausted n _ _ hpage =>
    obtain ⟨batch, hbatch, hne⟩ := hgo.2 (n + 1) (by omega) le_rfl
    rw [hpage] at hbatch
    simp_all

/-- Whatever ended the call, a page is asked for exactly if the pages before it were non-empty
batches that left the call short of its target. -/
theorem ExitAt.goesOn_iff {exit : LoopExit} {n : Nat} (h : ExitAt fetchPage target exit n)
    {m : Nat} : GoesOn fetchPage target m ↔ m + 1 ≤ n := by
  constructor
  · intro hgo
    by_contra hnot
    exact h.not_goesOn (hgo.of_le (by omega))
  · intro hm
    cases h with
    | reached _ hbelow _ => exact hbelow m hm
    | empty hk _ => exact hk.of_le (by omega)
    | failed hk _ => exact hk.of_le (by omega)
    | quotaExhausted hk _ => exact hk.of_le (by omega)

/-- The products in the result are the first `target` distinct products of the pages asked for, and
they fall short of the target exactly when the products of the loop did. -/
theorem ExitAt.slice {products : List Product} {degraded : Bool} {errorMessage : Option Str}
    {n : Nat} (h : ExitAt fetchPage target (.finished products degraded errorMessage) n) :
    sliceTo products target = (distinct (fetched fetchPage n)).take target.toNat ∧
      ((products.length : Int) < target ↔ ((sliceTo products target).length : Int) < target) := by
  have hstop : ∀ {k}, GoesOn fetchPage target k → batchAt fetchPage (k + 1) = [] →
      sliceTo (distinct (fetched fetchPage k)) target =
          (distinct (fetched fetchPage (k + 1))).take target.toNat ∧
        (((distinct (fetched fetchPage k)).length : Int) < target ↔
          ((sliceTo (distinct (fetched fetchPage k)) target).length : Int) < target) := by
    intro k hk hbatch
    rw [fetched_succ, hbatch, List.append_nil, sliceTo_of_length_lt hk.1,
      List.take_of_length_le (by have := hk.1; omega)]
    exact ⟨rfl, Iff.rfl⟩
  cases h with
  | reached => exact ⟨sliceTo_take _ _, by rw [sliceTo_take]⟩
  | empty hk hpage => exact hstop hk (by rw [batchAt, hpage])
  | failed hk hpage => exact hstop hk (by rw [batchAt, hpage])

/-- A call that reached its target ended on a batch, if it asked for a page at all. -/
theorem not_endedBy_of_batches {n : Nat} (hreq : c.requested = pagesTo n)
    (hbatches : ∀ page, 1 ≤ page → page ≤ n → ∃ batch, fetchPage page = .batch batch)
    {outcome : FetchOutcome} (hne : ∀ batch, outcome ≠ .batch batch) :
    ¬ EndedBy fetchPage c outcome := by
  rintro ⟨page, hlast, rfl⟩
  rw [hreq] at hlast
  obtain ⟨h1, hn⟩ := mem_pagesTo.mp (List.mem_of_getLast? hlast)
  obtain ⟨batch, hbatch⟩ := hbatches page h1 hn
  exact hne batch hbatch

/-- The loop raises exactly when `ProxyQuotaExhaustedError` ended it, and raises that exception. -/
theorem ExitAt.raised_iff {exit : LoopExit} {n : Nat} (h : ExitAt fetchPage target exit n)
    (hreq : c.requested = pagesTo n) (exc : PyError) :
    exit = .raised exc ↔
      exc.kind = .proxyQuotaExhausted ∧ EndedBy fetchPage c (.quotaExhausted exc.text) := by
  cases h with
  | reached _ _ hbatches =>
    have hnot : ¬ EndedBy fetchPage c (.quotaExhausted exc.text) :=
      not_endedBy_of_batches hreq hbatches (fun _ h => by cases h)
    simp [hnot]
  | empty _ hpage => simp [endedBy_succ_iff hreq, hpage]
  | failed _ hpage => simp [endedBy_succ_iff hreq, hpage]
  | quotaExhausted _ hpage =>
    obtain ⟨kind, text⟩ := exc
    simp [endedBy_succ_iff hreq, hpage, eq_comm]

/-- The call is degraded exactly when its last page failed. -/
theorem ExitAt.degraded_iff {products : List Product} {degraded : Bool}
    {errorMessage : Option Str} {n : Nat}
    (h : ExitAt fetchPage target (.finished products degraded errorMessage) n)
    (hreq : c.requested = pagesTo n) :
    (degraded = true ↔ ∃ text, EndedBy fetchPage c (.failed text)) ∧
      ∀ text, EndedBy fetchPage c (.failed text) →
        products = distinct (fetched fetchPage (n - 1)) ∧ errorMessage = some text := by
  cases h with
  | reached _ _ hbatches =>
    have hnot : ∀ text, ¬ EndedBy fetchPage c (.failed text) :=
      fun text => not_endedBy_of_batches hreq hbatches (fun _ h => by cases h)
    exact ⟨by simp [hnot], fun text ht => absurd ht (hnot text)⟩
  | empty _ hpage =>
    simp [endedBy_succ_iff hreq, hpage]
  | failed _ hpage =>
    simp [endedBy_succ_iff hreq, hpage]

/-- What the result of a call says about the pages the call asked for. -/
structure CollectedAs (fetchPage : Nat → FetchOutcome) (target : Int) (c : Collection)
    (r : CollectionResult) : Prop where
  products_eq : r.products =
    (distinct (c.requested.flatMap (batchAt fetchPage))).take target.toNat
  nodup : (r.products.map Product.id).Nodup
  target_eq : r.targetCount = target
  count_eq : r.collectedCount = r.products.length
  count_le : (r.collectedCount : Int) ≤ max target 0
  degraded_iff : r.degraded = true ↔ ∃ text, EndedBy fetchPage c (.failed text)
  kept_of_failed : ∀ text, EndedBy fetchPage c (.failed text) →
    r.products = distinct (c.requested.dropLast.flatMap (batchAt fetchPage)) ∧
      r.errorMessage = some text
  exhausted_iff : r.exhausted = true ↔
    (r.collectedCount : Int) < target ∧ r.degraded = false

theorem ExitAt.collectedAs {products : List Product} {degraded : Bool}
    {errorMessage : Option Str} {n : Nat}
    (h : ExitAt fetchPage target (.finished products degraded errorMessage) n)
    (hreq : c.requested = pagesTo n) :
    CollectedAs fetchPage target c (buildResult target products degraded errorMessage) := by
  obtain ⟨hslice, hlt⟩ := h.slice
  obtain ⟨hdegraded, hkept⟩ := h.degraded_iff hreq
  have hproducts : (buildResult target products degraded errorMessage).products =
      (distinct (c.requested.flatMap (batchAt fetchPage))).take target.toNat := by
    rw [hreq]
    exact hslice
  refine ⟨hproducts, ?_, rfl, rfl, ?_, hdegraded, ?_, ?_⟩
  · rw [hproducts]
    exact (nodup_map_keepFirst Product.id _).sublist ((List.take_sublist _ _).map _)
  · have hlen : (buildResult target products degraded errorMessage).collectedCount ≤
        target.toNat := by
      show (sliceTo products target).length ≤ target.toNat
      rw [hslice]
      exact List.length_take_le _ _
    omega
  · intro text htext
    obtain ⟨hall, hmessage⟩ := hkept text htext
    refine ⟨?_, hmessage⟩
    obtain ⟨page, hlast, -⟩ := htext
    cases n with
    | zero => simp [hreq] at hlast
    | succ n =>
      have hgo : GoesOn fetchPage target n := h.goesOn_iff.mpr le_rfl
      rw [Nat.add_sub_cancel] at hall
      rw [hreq, pagesTo_succ, List.dropLast_concat]
      show sliceTo products target = distinct (fetched fetchPage n)
      rw [hall, sliceTo_of_length_lt hgo.1]
  · show (decide ((products.length : Int) < target) && !degraded) = true ↔
      ((sliceTo products target).length : Int) < target ∧ degraded = false
    rw [Bool.and_eq_true, decide_eq_true_eq, hlt, Bool.not_eq_true']

/-- **`collect` against its specification**, for every outcome of the page fetches and every
target, whenever the call ends: it asks for pages `1, 2, 3, ...` until the target is reached, a page
is empty or a page fails, and for none after that; it raises exactly when `ProxyQuotaExhaustedError`
ended it; and otherwise its result is the one `CollectedAs` describes. -/
theorem collect_correct (h : collect fetchPage ozonHttp target fuel = some c) :
    (∃ n, c.requested = pagesTo n) ∧
    (∀ n, n + 1 ∈ c.requested ↔ GoesOn fetchPage target n) ∧
    (∀ exc, c.outcome = .error exc ↔ exc.kind = .proxyQuotaExhausted ∧
      EndedBy fetchPage c (.quotaExhausted exc.text)) ∧
    ∀ r, c.outcome = .ok r → CollectedAs fetchPage target c r := by
  obtain ⟨exit, n, hexit, hreq, hout⟩ := collect_exit h
  refine ⟨⟨n, hreq⟩, fun m => ?_, fun exc => ?_, fun r hr => ?_⟩
  · rw [hreq, mem_pagesTo, hexit.goesOn_iff]
    exact and_iff_right (by omega)
  · rw [← hexit.raised_iff hreq, hout]
    cases exit with
    | raised exc' => simp
    | finished => simp
  · rw [hout] at hr
    cases exit with
    | raised exc => cases hr
    | finished products degraded errorMessage =>
      obtain rfl := Except.ok.inj hr
      exact hexit.collectedAs hreq

end Collect

/-- A product as the parser builds it. -/
def phone (sku : Str) : Product where
  id := sku
  name := "Phone".toList
  price := 10000
  url := "https://www.ozon.ru/product/".toList ++ sku
  category := "Смартфоны".toList
  collectedAt := 0

/-- Two pages with three phones between them, then a page that cannot be fetched. -/
def brokenCatalog : Nat → FetchOutcome
  | 1 => .batch [phone "101".toList, phone "102".toList]
  | 2 => .batch [phone "101".toList, phone "103".toList]
  | _ => .failed "HTTP 503".toList

theorem collect_correct_brokenCatalog :
    ∃ c r, collect brokenCatalog true 10 3 = some c ∧ c.outcome = .ok r ∧
      c.requested = [1, 2, 3] ∧ CollectedAs brokenCatalog 10 c r ∧
      r.products.map Product.id = ["101".toList, "102".toList, "103".toList] :=
  ⟨_, _, rfl, rfl, rfl,
    (collect_correct (show collect brokenCatalog true 10 3 = some _ from rfl)).2.2.2 _ rfl, rfl⟩

/-! ### Termination -/

/-- A call ends exactly when, after some page, the loop cannot go on. -/
theorem terminates_iff_exists (fetchPage : Nat → FetchOutcome) (ozonHttp : Bool) (target : Int) :
    Terminates fetchPage ozonHttp target ↔ ∃ n, ¬ GoesOn fetchPage target n := by
  constructor
  · rintro ⟨fuel, hfuel⟩
    obtain ⟨c, hc⟩ := Option.isSome_iff_exists.mp hfuel
    obtain ⟨exit, n, hexit, -⟩ := collect_exit hc
    exact ⟨n, hexit.not_goesOn⟩
  · rintro ⟨n, hn⟩
    refine ⟨n, ?_⟩
    cases h : collect fetchPage ozonHttp target n with
    | none => exact absurd (collect_none h) hn
    | some c => rfl

/-- The product ids that occur on the pages of a marketplace. -/
def productIds (pages : Nat → List Product) : Set Str :=
  {id | ∃ page, 1 ≤ page ∧ ∃ product ∈ pages page, product.id = id}

theorem mem_fetched_batch {pages : Nat → List Product} {n : Nat} {product : Product} :
    product ∈ fetched (fun page => .batch (pages page)) n ↔
      ∃ page, 1 ≤ page ∧ page ≤ n ∧ product ∈ pages page := by
  simp only [fetched, List.mem_flatMap, mem_pagesTo, batchAt]
  constructor
  · rintro ⟨page, ⟨h1, hn⟩, hmem⟩
    exact ⟨page, h1, hn, hmem⟩
  · rintro ⟨page, h1, hn, hmem⟩
    exact ⟨page, ⟨h1, hn⟩, hmem⟩

/-- No call collects more distinct ids than there are. -/
theorem length_distinct_le {pages : Nat → List Product} (hfin : (productIds pages).Finite)
    (n : Nat) :
    (distinct (fetched (fun page => .batch (pages page)) n)).length ≤ (productIds pages).ncard := by
  rw [distinct, length_keepFirst, ← Set.ncard_coe_finset]
  refine Set.ncard_le_ncard (fun id hid => ?_) hfin
  rw [Finset.mem_coe, List.mem_toFinset, List.mem_map] at hid
  obtain ⟨product, hproduct, rfl⟩ := hid
  obtain ⟨page, h1, -, hmem⟩ := mem_fetched_batch.mp hproduct
  exact ⟨page, h1, product, hmem, rfl⟩

/-- When there are finitely many ids, finitely many pages show all of them. -/
theorem exists_ncard_le_length_distinct {pages : Nat → List Product}
    (hfin : (productIds pages).Finite) :
    ∃ n, (productIds pages).ncard ≤
      (distinct (fetched (fun page => .batch (pages page)) n)).length := by
  have hpage : ∀ id ∈ productIds pages,
      ∃ page, 1 ≤ page ∧ ∃ product ∈ pages page, product.id = id := fun id hid => hid
  choose! page h1 hmem using hpage
  obtain ⟨n, hn⟩ := (hfin.image page).bddAbove
  refine ⟨n, ?_⟩
  rw [distinct, length_keepFirst, ← Set.ncard_coe_finset]
  refine Set.ncard_le_ncard (fun id hid => ?_) (Finset.finite_toSet _)
  obtain ⟨product, hproduct, hid'⟩ := hmem id hid
  rw [Finset.mem_coe, List.mem_toFinset, List.mem_map]
  exact ⟨product, mem_fetched_batch.mpr
    ⟨page id, h1 id hid, hn (Set.mem_image_of_mem page hid), hproduct⟩, hid'⟩

/-- **Termination**: when no page fails and finitely many ids occur over all pages, `collect` ends
exactly when some page is empty or there are at least `target` ids.  Otherwise it asks for pages
forever. -/
theorem terminates_iff (pages : Nat → List Product) (hfin : (productIds pages).Finite)
    (ozonHttp : Bool) (target : Int) :
    Terminates (fun page => .batch (pages page)) ozonHttp target ↔
      (∃ page, 1 ≤ page ∧ pages page = []) ∨ target ≤ (productIds pages).ncard := by
  rw [terminates_iff_exists]
  constructor
  · rintro ⟨n, hn⟩
    by_contra hnot
    -- no page is empty and the ids do not reach the target, so the loop goes on after page `n`
    push Not at hnot
    refine hn ⟨lt_of_le_of_lt ?_ hnot.2, fun page h1 _ => ⟨_, rfl, hnot.1 page h1⟩⟩
    exact_mod_cast length_distinct_le hfin n
  · rintro (⟨page, h1, hempty⟩ | htarget)
    · refine ⟨page, fun hgo => ?_⟩
      obtain ⟨batch, hbatch, hne⟩ := hgo.2 page h1 le_rfl
      exact hne ((FetchOutcome.batch.inj hbatch).symm.trans hempty)
    · -- some page has shown all ids
      obtain ⟨n, hn⟩ := exists_ncard_le_length_distinct hfin
      exact ⟨n, fun hgo => absurd hgo.1 (by omega)⟩

theorem productIds_repeated : productIds (fun _ => [phone "101".toList]) = {"101".toList} := by
  ext id
  constructor
  · rintro ⟨_, -, product, hproduct, rfl⟩
    rw [List.mem_singleton] at hproduct
    rw [hproduct]
    rfl
  · rintro rfl
    exact ⟨1, le_rfl, _, List.mem_singleton_self _, rfl⟩

/-- A marketplace that answers every page number with its only page: one phone is collected. -/
theorem terminates_repeated_one :
    Terminates (fun _ => .batch [phone "101".toList]) true 1 :=
  (terminates_iff (fun _ => [phone "101".toList])
    (by rw [productIds_repeated]; exact Set.finite_singleton _) true 1).mpr
    (Or.inr (by rw [productIds_repeated, Set.ncard_singleton]; exact le_rfl))

/-- The same marketplace with a target of two: finitely many ids, and `collect` never ends. -/
theorem not_terminates_repeated :
    ¬ ∀ (pages : Nat → List Product) (target : Int), (productIds pages).Finite →
      Terminates (fun page => .batch (pages page)) true target := by
  intro hall
  have hfin : (productIds (fun _ => [phone "101".toList])).Finite := by
    rw [productIds_repeated]
    exact Set.finite_singleton _
  obtain ⟨n, hn⟩ := (terminates_iff_exists _ _ _).mp (hall _ 2 hfin)
  refine hn ⟨?_, fun page _ _ => ⟨_, rfl, by simp⟩⟩
  have := length_distinct_le hfin n
  rw [productIds_repeated, Set.ncard_singleton] at this
  omega

end MarketplacePipeline.OzonCatalogCollector
