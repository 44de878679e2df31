import MarketplacePipeline.Pipeline.Equiv.CrmTaskFactory

/-!
# What is selected

`SelectsBest` says which products of a segment a selection has to consist of, and in which order.
Both selections of `ProductSelectionService` are sorts by price that are cut off, and `topBy` has
these properties for any key.
-/

namespace MarketplacePipeline

open TopByKey CrmTaskFactory

/-- The selection consists of the best products of a segment, where `better p q` says that the
price `p` is at least as good as `q`. -/
structure SelectsBest (segment : PriceSegment) (better : ℚ → ℚ → Prop) (limit : ℤ)
    (products selection : List EnrichedProduct) : Prop where
  length_eq : (selection.length : ℤ) =
    min limit (products.countP fun p => p.segment = segment)
  segment_eq : ∀ p ∈ selection, p.segment = segment
  count_le : ∀ p, selection.count p ≤ products.count p
  sorted : selection.Pairwise fun p q => better p.price q.price
  /-- Of the products with a price the first ones are selected, in their order. -/
  ties : ∀ price, selection.filter (fun p => p.price = price) <+:
    products.filter fun p => p.segment = segment ∧ p.price = price
  /-- No product that is left out is strictly better than one that is selected. -/
  best : ∀ p ∈ selection, ∀ q, q.segment = segment → selection.count q < products.count q →
    better p.price q.price

namespace ProductSelectionService

variable {κ : Type} [LinearOrder κ] {key : EnrichedProduct → κ} {better : ℚ → ℚ → Prop}

theorem count_ofSegment {segment : PriceSegment} {q : EnrichedProduct} (h : q.segment = segment)
    (products : List EnrichedProduct) :
    (ofSegment segment products).count q = products.count q :=
  List.count_filter (decide_eq_true h)

/-- The first products of a segment by a key that orders the prices. -/
theorem selectsBest_topBy (segment : PriceSegment)
    (hkey : ∀ p q, key p ≤ key q ↔ better p.price q.price)
    (hprice : ∀ p q, key p = key q ↔ p.price = q.price) {limit : ℤ} (hlimit : 0 ≤ limit)
    (products : List EnrichedProduct) :
    SelectsBest segment better limit products
      (topBy key limit.toNat (ofSegment segment products)) where
  length_eq := by
    have hcount : (ofSegment segment products).length =
        products.countP fun p => p.segment = segment := List.countP_eq_length_filter.symm
    rw [length_topBy, hcount]
    omega
  segment_eq p hp := (mem_ofSegment.mp (mem_of_mem_topBy hp)).2
  count_le p := by
    have hsub := (subperm_topBy key limit.toNat (ofSegment segment products)).count_le p
    exact hsub.trans (List.filter_sublist.count_le p)
  sorted := (pairwise_topBy key _ _).imp (fun h => (hkey _ _).mp h)
  ties price := by
    by_cases hsome : ∃ p ∈ topBy key limit.toNat (ofSegment segment products), p.price = price
    · obtain ⟨p, -, rfl⟩ := hsome
      have hprefix := filter_topBy_prefix key limit.toNat (key p) (ofSegment segment products)
      unfold ofSegment at hprefix ⊢
      simp only [hprice, List.filter_filter] at hprefix
      simpa only [Bool.decide_and, Bool.and_comm] using hprefix
    · have hnil : (topBy key limit.toNat (ofSegment segment products)).filter
          (fun p => p.price = price) = [] := by
        rw [List.filter_eq_nil_iff]
        intro p hp heq
        exact hsome ⟨p, hp, of_decide_eq_true heq⟩
      rw [hnil]
      exact List.nil_prefix
  best p hp q hq hout := by
    rw [← count_ofSegment hq products] at hout
    exact (hkey p q).mp (key_le_of_count_lt hp hout)

theorem selectsBest_topPremiumByPrice {limit : ℤ} (hlimit : 0 ≤ limit)
    (products : List EnrichedProduct) :
    SelectsBest .premium (fun p q => q ≤ p) limit products (topPremiumByPrice products limit) := by
  have heq : topPremiumByPrice products limit =
      topBy dearness limit.toNat (ofSegment .premium products) := sliceTo_of_nonneg _ hlimit
  rw [heq]
  have hkey : ∀ p q, dearness p ≤ dearness q ↔ q.price ≤ p.price := fun p q => Iff.rfl
  have hprice : ∀ p q, dearness p = dearness q ↔ p.price = q.price :=
    fun p q => OrderDual.toDual_inj
  exact selectsBest_topBy .premium hkey hprice hlimit products

theorem selectsBest_topEconomyByPrice {limit : ℤ} (hlimit : 0 ≤ limit)
    (products : List EnrichedProduct) :
    SelectsBest .economy (fun p q => p ≤ q) limit products (topEconomyByPrice products limit) := by
  have heq : topEconomyByPrice products limit =
      topBy cheapness limit.toNat (ofSegment .economy products) := sliceTo_of_nonneg _ hlimit
  rw [heq]
  have hkey : ∀ p q, cheapness p ≤ cheapness q ↔ p.price ≤ q.price := fun p q => Iff.rfl
  have hprice : ∀ p q, cheapness p = cheapness q ↔ p.price = q.price := fun p q => Iff.rfl
  exact selectsBest_topBy .economy hkey hprice hlimit products

/-- **What is selected and listed**: the selections are the best products of their segments, and
the tasks are those of the selections that are not empty, Premium first, with a line for each
product. -/
theorem selections_correct (products : List EnrichedProduct) {limit : ℤ} (hlimit : 0 ≤ limit) :
    SelectsBest .premium (fun p q => q ≤ p) limit products (topPremiumByPrice products limit) ∧
      SelectsBest .economy (fun p q => p ≤ q) limit products
        (topEconomyByPrice products limit) ∧
      buildTasks products =
        ([(premiumTitle, topPremiumByPrice products 5),
            (economyTitle, topEconomyByPrice products 5)].filter fun task => task.2 ≠ []).map
          fun task =>
            { title := task.1
              description := List.intercalate "\n".toList (task.2.map formatLine) } := by
  refine ⟨selectsBest_topPremiumByPrice hlimit products,
    selectsBest_topEconomyByPrice hlimit products, ?_⟩
  unfold buildTasks taskFor
  by_cases hpremium : topPremiumByPrice products 5 = [] <;>
    by_cases heconomy : topEconomyByPrice products 5 = [] <;>
      simp [hpremium, heconomy, formatLines]

/-- The dearest of two phones. -/
theorem selections_correct_phones :
    SelectsBest .premium (fun p q => q ≤ p) 1 [phoneA, phoneB]
        (topPremiumByPrice [phoneA, phoneB] 1) ∧
      SelectsBest .economy (fun p q => p ≤ q) 1 [phoneA, phoneB]
        (topEconomyByPrice [phoneA, phoneB] 1) ∧
      buildTasks [phoneA, phoneB] =
        ([(premiumTitle, topPremiumByPrice [phoneA, phoneB] 5),
            (economyTitle, topEconomyByPrice [phoneA, phoneB] 5)].filter
              fun task => task.2 ≠ []).map
          fun task =>
            { title := task.1
              description := List.intercalate "\n".toList (task.2.map formatLine) } :=
  selections_correct [phoneA, phoneB] (by decide)

end ProductSelectionService

end MarketplacePipeline
