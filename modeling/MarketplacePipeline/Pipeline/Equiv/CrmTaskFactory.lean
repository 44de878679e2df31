import MarketplacePipeline.Algorithm.TopByKey
import MarketplacePipeline.Crm.Equiv.Rerun
import MarketplacePipeline.Pipeline.CrmTaskFactory
import Mathlib.Algebra.Order.Ring.Rat

/-!
# The tasks of a catalog in another order

A task lists the first five products by price, and the sort keeps products with the same price in
their order.  So `buildTasks` gives the same tasks for every order of a catalog exactly if the order
of equal prices cannot be seen in the lines (`buildTasks_perm_iff`), and then a second run over the
catalog creates nothing.
-/

namespace MarketplacePipeline.CrmTaskFactory

open ProductSelectionService IdempotencyPolicy TopByKey AmoCrmGateway

variable {products listed ps qs : List EnrichedProduct} {segment : PriceSegment}

/-! ### Lines -/

/-- The line of a product, with the line break after it. -/
def line (p : EnrichedProduct) : Str := formatLine p ++ "\n".toList

theorem formatLines_append (h : ps ≠ []) : formatLines ps ++ "\n".toList = ps.flatMap line := by
  induction ps with
  | nil => exact absurd rfl h
  | cons p ps ih =>
    unfold formatLines at ih ⊢
    by_cases hps : ps = []
    · subst hps
      rw [List.map_singleton, List.intercalate_singleton, List.flatMap_singleton, line]
    · have hmap : ps.map formatLine ≠ [] := by simpa using hps
      rw [List.map_cons, List.intercalate_cons_of_ne_nil hmap, List.flatMap_cons, ← ih hps, line]
      simp only [List.append_assoc]

theorem formatLines_eq_iff (hps : ps ≠ []) (hqs : qs ≠ []) :
    formatLines ps = formatLines qs ↔ ps.flatMap line = qs.flatMap line := by
  rw [← formatLines_append hps, ← formatLines_append hqs, List.append_left_inj]

/-! ### One task -/

theorem length_taskFor (title : Str) (h : ps.length = qs.length) :
    (taskFor title ps).length = (taskFor title qs).length := by
  have hnil : ps = [] ↔ qs = [] := by
    rw [← List.length_eq_zero_iff, h, List.length_eq_zero_iff]
  unfold taskFor
  by_cases hps : ps = []
  · rw [if_pos hps, if_pos (hnil.mp hps)]
  · rw [if_neg hps, if_neg (mt hnil.mpr hps)]
    rfl

theorem taskFor_eq_iff (title : Str) (h : ps.length = qs.length) :
    taskFor title ps = taskFor title qs ↔ ps.flatMap line = qs.flatMap line := by
  have hnil : ps = [] ↔ qs = [] := by
    rw [← List.length_eq_zero_iff, h, List.length_eq_zero_iff]
  unfold taskFor
  by_cases hps : ps = []
  · rw [if_pos hps, if_pos (hnil.mp hps), hps, hnil.mp hps]
    simp
  · rw [if_neg hps, if_neg (mt hnil.mpr hps), ← formatLines_eq_iff hps (mt hnil.mpr hps)]
    simp

/-! ### The selections -/

/-- The products of a segment. -/
def ofSegment (segment : PriceSegment) (products : List EnrichedProduct) : List EnrichedProduct :=
  products.filter fun p => p.segment = segment

/-- The price, the dearest first. -/
def dearness (p : EnrichedProduct) : ℚᵒᵈ := OrderDual.toDual p.price

/-- The price, the cheapest first. -/
def cheapness (p : EnrichedProduct) : ℚ := p.price

theorem topPremiumByPrice_eq (products : List EnrichedProduct) :
    topPremiumByPrice products = topBy dearness 5 (ofSegment .premium products) := rfl

theorem topEconomyByPrice_eq (products : List EnrichedProduct) :
    topEconomyByPrice products = topBy cheapness 5 (ofSegment .economy products) := rfl

theorem buildTasks_eq (products : List EnrichedProduct) :
    buildTasks products =
      taskFor premiumTitle (topBy dearness 5 (ofSegment .premium products)) ++
        taskFor economyTitle (topBy cheapness 5 (ofSegment .economy products)) := by
  rw [← topPremiumByPrice_eq, ← topEconomyByPrice_eq]
  rfl

theorem mem_ofSegment {p : EnrichedProduct} :
    p ∈ ofSegment segment products ↔ p ∈ products ∧ p.segment = segment := by
  unfold ofSegment
  rw [List.mem_filter, decide_eq_true_eq]

theorem ofSegment_eq_nil_iff :
    ofSegment segment products = [] ↔ ¬ ∃ p ∈ products, p.segment = segment := by
  rw [List.eq_nil_iff_forall_not_mem]
  simp only [mem_ofSegment, not_exists]

/-- A catalog gives one task for each of the two segments that it has products of. -/
theorem length_buildTasks (products : List EnrichedProduct) :
    (buildTasks products).length =
      (if ∃ p ∈ products, p.segment = .premium then 1 else 0) +
        if ∃ p ∈ products, p.segment = .economy then 1 else 0 := by
  have htask : ∀ {κ : Type} [LinearOrder κ] (key : EnrichedProduct → κ) (title : Str)
      (segment : PriceSegment), (taskFor title (topBy key 5 (ofSegment segment products))).length =
        if ∃ p ∈ products, p.segment = segment then 1 else 0 := by
    intro κ _ key title segment
    unfold taskFor
    by_cases hsome : ∃ p ∈ products, p.segment = segment
    · rw [if_pos hsome, if_neg]
      · rfl
      · rw [topBy_eq_nil_iff (by decide), ofSegment_eq_nil_iff]
        exact not_not_intro hsome
    · rw [if_neg hsome, if_pos]
      · rfl
      · rw [topBy_eq_nil_iff (by decide), ofSegment_eq_nil_iff]
        exact hsome
  rw [buildTasks_eq, List.length_append, htask, htask]

theorem mem_topPremiumByPrice {p : EnrichedProduct} (h : p ∈ topPremiumByPrice products) :
    p ∈ products ∧ p.segment = .premium := by
  rw [topPremiumByPrice_eq] at h
  exact mem_ofSegment.mp (mem_of_mem_topBy h)

theorem mem_topEconomyByPrice {p : EnrichedProduct} (h : p ∈ topEconomyByPrice products) :
    p ∈ products ∧ p.segment = .economy := by
  rw [topEconomyByPrice_eq] at h
  exact mem_ofSegment.mp (mem_of_mem_topBy h)

theorem ofSegment_perm (segment : PriceSegment) (h : listed.Perm products) :
    (ofSegment segment listed).Perm (ofSegment segment products) := h.filter _

theorem length_topBy_of_perm {κ : Type*} [LinearOrder κ] (key : EnrichedProduct → κ) (n : ℕ)
    (h : ps.Perm qs) : (topBy key n ps).length = (topBy key n qs).length := by
  unfold topBy
  rw [List.length_take, List.length_take, List.length_insertionSort, List.length_insertionSort,
    h.length_eq]

/-- The tasks of two orders of a catalog are the same if both selections are written the same. -/
theorem buildTasks_eq_iff (h : listed.Perm products) :
    buildTasks listed = buildTasks products ↔
      (topBy dearness 5 (ofSegment .premium listed)).flatMap line =
          (topBy dearness 5 (ofSegment .premium products)).flatMap line ∧
        (topBy cheapness 5 (ofSegment .economy listed)).flatMap line =
          (topBy cheapness 5 (ofSegment .economy products)).flatMap line := by
  have hpremium := length_topBy_of_perm dearness 5 (ofSegment_perm .premium h)
  have heconomy := length_topBy_of_perm cheapness 5 (ofSegment_perm .economy h)
  rw [buildTasks_eq, buildTasks_eq, ← taskFor_eq_iff premiumTitle hpremium,
    ← taskFor_eq_iff economyTitle heconomy]
  refine ⟨fun heq => List.append_inj heq (length_taskFor premiumTitle hpremium), fun heq => ?_⟩
  rw [heq.1, heq.2]

/-- Any order of the products of a segment is their order in some order of the catalog. -/
theorem exists_perm_ofSegment (h : ps.Perm (ofSegment segment products)) :
    ∃ listed, listed.Perm products ∧ ofSegment segment listed = ps := by
  refine ⟨ps ++ products.filter fun p => !decide (p.segment = segment), ?_, ?_⟩
  · exact (h.append_right _).trans (List.filter_append_perm _ _)
  · have hps : ∀ p ∈ ps, p.segment = segment := by
      intro p hp
      have hmem := h.mem_iff.mp hp
      simpa [ofSegment] using (List.mem_filter.mp hmem).2
    unfold ofSegment
    rw [List.filter_append, List.filter_filter, List.filter_eq_self.mpr]
    · simp
    · intro p hp
      exact decide_eq_true (hps p hp)

/-! ### Every order of a catalog -/

/-- The order of products with the same price cannot be seen in the tasks: for any two Premium
products with the same price, of which fewer than five Premium products are dearer, the two lines
can change places if no more than five cost at least as much, and are the same otherwise; and
likewise for the cheapest Economy products. -/
def TiesUnseen (products : List EnrichedProduct) : Prop :=
  TiesAgree dearness line 5 (ofSegment .premium products) ∧
    TiesAgree cheapness line 5 (ofSegment .economy products)

instance (products : List EnrichedProduct) : Decidable (TiesUnseen products) :=
  inferInstanceAs (Decidable (TiesAgree dearness line 5 (ofSegment .premium products) ∧
    TiesAgree cheapness line 5 (ofSegment .economy products)))

theorem buildTasks_perm_iff_tiesUnseen :
    (∀ listed, listed.Perm products → buildTasks listed = buildTasks products) ↔
      TiesUnseen products := by
  unfold TiesUnseen
  rw [← flatMap_topBy_eq_iff, ← flatMap_topBy_eq_iff]
  refine ⟨fun h => ⟨fun ps hps => ?_, fun ps hps => ?_⟩, fun h listed hlisted => ?_⟩
  · obtain ⟨listed, hlisted, rfl⟩ := exists_perm_ofSegment hps
    exact ((buildTasks_eq_iff hlisted).mp (h listed hlisted)).1
  · obtain ⟨listed, hlisted, rfl⟩ := exists_perm_ofSegment hps
    exact ((buildTasks_eq_iff hlisted).mp (h listed hlisted)).2
  · rw [buildTasks_eq_iff hlisted]
    exact ⟨h.1 _ (ofSegment_perm .premium hlisted), h.2 _ (ofSegment_perm .economy hlisted)⟩

/-- What is the same for two orders of a catalog: the tasks, their keys, and so a second run creates
nothing. -/
structure SameTasks (listed products : List EnrichedProduct) : Prop where
  tasks_eq : buildTasks listed = buildTasks products
  keys_eq : ∀ sha256, (buildTasks listed).map (computeTaskIdempotencyKey sha256) =
    (buildTasks products).map (computeTaskIdempotencyKey sha256)
  reused : ∀ (σ : Type) (gateway : AmoCrmGateway σ),
    gateway.settings.crmIdempotencyEnabled = true →
    gateway.RerunReuses (buildTasks products) (buildTasks listed)

/-- **When the order of a catalog does not matter.** -/
theorem sameTasks_perm_iff (products : List EnrichedProduct) :
    (∀ listed, listed.Perm products → SameTasks listed products) ↔ TiesUnseen products := by
  rw [← buildTasks_perm_iff_tiesUnseen]
  refine ⟨fun h listed hlisted => (h listed hlisted).tasks_eq, fun h listed hlisted => ?_⟩
  have htasks := h listed hlisted
  refine ⟨htasks, fun sha256 => by rw [htasks], fun σ gateway henabled => ?_⟩
  rw [htasks]
  exact rerunReuses henabled (buildTasks products)

/-! ### Two products with the same price -/

/-- A Premium product for 70000 rubles. -/
def premiumPhone (name : Str) : EnrichedProduct where
  id := name
  name := name
  price := 70000
  url := "https://ozon.ru/".toList ++ name
  category := "Смартфоны".toList
  collectedAt := 0
  segment := .premium

def phoneA : EnrichedProduct := premiumPhone "A".toList

def phoneB : EnrichedProduct := premiumPhone "B".toList

/-- The digests of the tasks of the two phones, in both orders. -/
def phoneDigests (text : Str) : Str :=
  if text = premiumTitle ++ "\n- A: 70000 RUB — https://ozon.ru/A".toList ++
      "\n- B: 70000 RUB — https://ozon.ru/B".toList then
    "fc1994164e95cd561de281f2c54958f90a50cdd19e5503221bc60c4a7afb4313".toList
  else if text = premiumTitle ++ "\n- B: 70000 RUB — https://ozon.ru/B".toList ++
      "\n- A: 70000 RUB — https://ozon.ru/A".toList then
    "3bd632db50934a40bbc69eec5ee6a2878c0bb8403a3bd4e1893923b238c35b79".toList
  else []

/-- A gateway with `MOCK_CRM` and a Redis store. -/
def mockGateway : AmoCrmGateway (Str → Option IdempotencyRecord) where
  settings := { mockCrm := true }
  store := redisIdempotencyStore
  sha256 :=
    { hexdigest := phoneDigests
      hex := fun text c hc => by
        have hall : ((phoneDigests text).all fun c => c ∈ "0123456789abcdef".toList) = true := by
          unfold phoneDigests
          split_ifs <;> decide
        exact of_decide_eq_true (List.all_eq_true.mp hall c hc) }

/-- The calls for some tasks. -/
def callsFor (tasks : List CrmTaskRequest) : List (AmoCrm × CrmTaskRequest) :=
  tasks.map fun task => (pagedAccount fun _ => returned [], task)

/-- What the second of two runs returns, if both return. -/
def secondRun (tasks tasks' : List CrmTaskRequest) : Option (List CrmTaskOutcome) :=
  match (mockGateway.createTasks (callsFor tasks)).run (accountOf []) with
  | .error _ _ => none
  | .ok _ w₁ =>
    match (mockGateway.createTasks (callsFor tasks')).run w₁ with
    | .error _ _ => none
    | .ok outcomes _ => some outcomes

theorem secondRun_reused {tasks tasks' : List CrmTaskRequest}
    (h : mockGateway.RerunReuses tasks tasks') :
    ∀ outcomes ∈ secondRun tasks tasks', ∀ outcome ∈ outcomes, outcome.reused = true := by
  intro outcomes hsecond
  unfold secondRun at hsecond
  cases hfirst : (mockGateway.createTasks (callsFor tasks)).run (accountOf []) with
  | error exc w₁ => simp [hfirst] at hsecond
  | ok found w₁ =>
    have hcalls : ∀ tasks, (callsFor tasks).map Prod.snd = tasks := fun tasks => by
      simp [callsFor]
    obtain ⟨outcomes', hrun, -, hreused⟩ :=
      h (callsFor tasks) (callsFor tasks') (hcalls tasks) (hcalls tasks') _ found w₁ w₁ hfirst
        KeepsRecords.refl
    simp only [hfirst, hrun, Option.mem_def, Option.some.injEq] at hsecond
    rw [← hsecond]
    exact hreused

/-- The two phones in another order: other tasks, other keys, and the second run creates a task. -/
theorem not_sameTasks_samePrice :
    [phoneB, phoneA].Perm [phoneA, phoneB] ∧
      buildTasks [phoneB, phoneA] ≠ buildTasks [phoneA, phoneB] ∧
      (buildTasks [phoneB, phoneA]).map (computeTaskIdempotencyKey mockGateway.sha256) ≠
        (buildTasks [phoneA, phoneB]).map (computeTaskIdempotencyKey mockGateway.sha256) ∧
      ¬ mockGateway.RerunReuses (buildTasks [phoneA, phoneB]) (buildTasks [phoneB, phoneA]) := by
  refine ⟨List.Perm.swap phoneA phoneB [], by decide +kernel, by decide +kernel, fun h => ?_⟩
  have hreused := secondRun_reused h
  revert hreused
  decide +kernel

/-- With another price for one of them the order cannot be seen. -/
example : TiesUnseen [phoneA, { phoneB with price := 60000 }] := by decide +kernel

end MarketplacePipeline.CrmTaskFactory
