import MarketplacePipeline.Pipeline.OpenAiSegmentClassifier

/-!
# The segments that the LLM gives

`given` is what the answer to one POST says about one id: the segment of the last entry with that
id, if the answer can be used and names a segment there.  `run_classify` says that `classify`
returns the products in their order, each with what the answer to the POST of its own batch gives
it, and Standard if that is nothing.
-/

namespace MarketplacePipeline.OpenAiSegmentClassifier

open HttpClient Chunks

variable (classifier : OpenAiSegmentClassifier) (endpoint : LlmEndpoint)

/-! ### What an answer gives -/

/-- The body that POST number `call` gets. -/
def answer (call : ℕ) : Except PyError Json := do
  let response ← answerFrom (fun attempt => checkAnswer (endpoint.chat call attempt))
    (classifier.settings.httpMaxRetries - 1).toNat 0
  response

/-- The items in the answer to POST number `call`. -/
def answerItems (call : ℕ) : Except PyError (List Json) := do
  let body ← classifier.answer endpoint call
  let content ← contentOf body
  let parsed ← classifier.json.loadsValue content
  itemsOf parsed

/-- The fields of the items, if all items are objects. -/
def fieldsOf : List Json → Option (List (List (Str × Json)))
  | [] => some []
  | .dict fields :: items => (fieldsOf items).map (fields :: ·)
  | _ :: _ => none

/-- The entries of the answer to POST number `call`: its content is JSON, a list or an object whose
`items` is a list, of objects only. -/
def entries (call : ℕ) : Option (List (List (Str × Json))) :=
  (classifier.answerItems endpoint call).toOption.bind fieldsOf

/-- A field of an entry, as text. -/
def fieldText (key : Str) (entry : List (Str × Json)) : Str :=
  classifier.json.str ((entry.lookup key).getD (.str []))

/-- The last entry with an id. -/
def lastEntry (id : Str) (entries : List (List (Str × Json))) : Option (List (Str × Json)) :=
  entries.reverse.find? fun entry => classifier.fieldText "id".toList entry = id

/-- The segment that an entry names, if it names one. -/
def segmentOf (entry : List (Str × Json)) : Option PriceSegment :=
  PriceSegment.ofValue (classifier.fieldText "segment".toList entry).strip

/-- The segment that the answer to POST number `call` gives an id. -/
def given (call : ℕ) (id : Str) : Option PriceSegment := do
  let entries ← classifier.entries endpoint call
  let entry ← classifier.lastEntry id entries
  classifier.segmentOf entry

/-- The segment that a product with this id gets from POST number `call`. -/
def label (call : ℕ) (id : Str) : PriceSegment :=
  (classifier.given endpoint call id).getD .standard

/-- The segments that a batch gets from POST number `call`. -/
def labels (call : ℕ) (batch : List Product) : Segments := fun id =>
  if id ∈ idsOf batch then some (classifier.label endpoint call id) else none

variable {classifier endpoint} {call : ℕ} {batch : List Product} {expectedIds : Finset Str}

/-! ### Parsing an answer -/

theorem parseItems_dict (fields : List (Str × Json)) (items : List Json) (result : Segments) :
    classifier.parseItems expectedIds (.dict fields :: items) result =
      if classifier.fieldText "id".toList fields ∉ expectedIds then
        classifier.parseItems expectedIds items result
      else
        classifier.parseItems expectedIds items
          (Function.update result (classifier.fieldText "id".toList fields)
            (some ((classifier.segmentOf fields).getD .standard))) := by
  have hid : classifier.productIdOf (.dict fields) =
      .ok (classifier.fieldText "id".toList fields) := rfl
  have hsegment : classifier.segmentRawOf (.dict fields) =
      .ok (classifier.fieldText "segment".toList fields).strip := rfl
  rw [parseItems, hid, hsegment]
  rfl

/-- A later entry with the id hides the first one. -/
theorem lastEntry_cons (id : Str) (entry : List (Str × Json)) (rest : List (List (Str × Json))) :
    classifier.lastEntry id (entry :: rest) =
      (classifier.lastEntry id rest).or
        (if classifier.fieldText "id".toList entry = id then some entry else none) := by
  unfold lastEntry
  rw [List.reverse_cons, List.find?_append]
  simp

/-- Items that are all objects give each expected id the segment of its last entry. -/
theorem parseItems_of_fieldsOf {items : List Json} {entries : List (List (Str × Json))}
    (h : fieldsOf items = some entries) (result : Segments) :
    classifier.parseItems expectedIds items result = .ok fun id =>
      if id ∈ expectedIds then
        ((classifier.lastEntry id entries).map fun entry =>
          (classifier.segmentOf entry).getD .standard).or (result id)
      else result id := by
  -- a later item overwrites an earlier one, so that the last entry of an id counts
  induction items generalizing entries result with
  | nil =>
    obtain rfl : entries = [] := by simpa [fieldsOf] using h.symm
    simp [parseItems, lastEntry]
  | cons item items ih =>
    cases item with
    | dict fields =>
      unfold fieldsOf at h
      rw [Option.map_eq_some_iff] at h
      obtain ⟨rest, hrest, rfl⟩ := h
      rw [parseItems_dict]
      by_cases hforeign : classifier.fieldText "id".toList fields ∉ expectedIds
      · rw [if_pos hforeign, ih hrest]
        congr 1
        funext id
        by_cases hid : id ∈ expectedIds
        · have hne : classifier.fieldText "id".toList fields ≠ id := by
            rintro rfl
            exact hforeign hid
          rw [if_pos hid, if_pos hid, lastEntry_cons, if_neg hne, Option.or_none]
        · rw [if_neg hid, if_neg hid]
      · rw [if_neg hforeign, ih hrest]
        congr 1
        funext id
        by_cases hid : id ∈ expectedIds
        · rw [if_pos hid, if_pos hid, lastEntry_cons]
          by_cases heq : classifier.fieldText "id".toList fields = id
          · subst heq
            rw [Function.update_self, if_pos rfl]
            cases classifier.lastEntry (classifier.fieldText "id".toList fields) rest <;> rfl
          · rw [Function.update_of_ne (Ne.symm heq), if_neg heq, Option.or_none]
        · have hne : id ≠ classifier.fieldText "id".toList fields := by
            rintro rfl
            exact hforeign hid
          rw [if_neg hid, if_neg hid, Function.update_of_ne hne]
    | null | bool b | int n | float text | str s | list items => cases h

/-- An item that is not an object ends the parsing. -/
theorem parseItems_of_fieldsOf_none (classifier : OpenAiSegmentClassifier)
    (expectedIds : Finset Str) {items : List Json} (h : fieldsOf items = none) (result : Segments) :
    ∃ exc, classifier.parseItems expectedIds items result = .error exc := by
  induction items generalizing result with
  | nil => cases h
  | cons item items ih =>
    cases item with
    | dict fields =>
      unfold fieldsOf at h
      rw [Option.map_eq_none_iff] at h
      rw [parseItems_dict]
      split_ifs
      · exact ih h _
      · exact ih h _
    | null | bool b | int n | float text | str s | list items => exact ⟨_, rfl⟩

/-! ### What can be raised -/

theorem onlyExceptions_getItem (value : Json) (key : Str) :
    OnlyExceptions (value.getItem key) := by
  unfold Json.getItem
  split
  · split
    · exact onlyExceptions_ok _
    · exact onlyExceptions_error rfl
  · exact onlyExceptions_error rfl
  · exact onlyExceptions_error rfl
  · exact onlyExceptions_error rfl

theorem onlyExceptions_getFirst (value : Json) : OnlyExceptions value.getFirst := by
  unfold Json.getFirst
  split
  · exact onlyExceptions_ok _
  · exact onlyExceptions_error rfl
  · exact onlyExceptions_ok _
  · exact onlyExceptions_error rfl
  · exact onlyExceptions_error rfl
  · exact onlyExceptions_error rfl

theorem onlyExceptions_get (value : Json) (key : Str) (fallback : Json) :
    OnlyExceptions (value.get key fallback) := by
  unfold Json.get
  split
  · exact onlyExceptions_ok _
  · exact onlyExceptions_error rfl

theorem onlyExceptions_contentOf (body : Json) : OnlyExceptions (contentOf body) := by
  unfold contentOf
  refine (onlyExceptions_getItem body _).bind fun choices => ?_
  refine (onlyExceptions_getFirst choices).bind fun choice => ?_
  exact (onlyExceptions_getItem choice _).bind fun message => onlyExceptions_getItem message _

theorem onlyExceptions_itemsOf (parsed : Json) : OnlyExceptions (itemsOf parsed) := by
  unfold itemsOf
  split
  · split
    · exact onlyExceptions_ok _
    · exact onlyExceptions_error rfl
  · exact onlyExceptions_ok _
  · exact onlyExceptions_error rfl

theorem onlyExceptions_loadsValue (text : JsonText) (content : Json) :
    OnlyExceptions (text.loadsValue content) := by
  unfold JsonText.loadsValue
  split
  · exact text.loads_isException _
  · exact onlyExceptions_error rfl

theorem onlyExceptions_answer : OnlyExceptions (classifier.answer endpoint call) := by
  unfold answer
  have hattempt : ∀ attempt, OnlyExceptions (checkAnswer (endpoint.chat call attempt)) :=
    fun attempt => onlyExceptions_checkAnswer (endpoint.raised_isException call attempt)
  cases hresponse : answerFrom (fun attempt => checkAnswer (endpoint.chat call attempt))
    (classifier.settings.httpMaxRetries - 1).toNat 0 with
  | error exc =>
    have hexc := onlyExceptions_answerFrom hattempt _ _ exc hresponse
    exact onlyExceptions_error hexc
  | ok response =>
    -- the response is the body of some attempt
    obtain ⟨attempt, hattempt⟩ := exists_of_answerFrom hresponse
    cases response with
    | ok body => exact onlyExceptions_ok body
    | error exc =>
      obtain ⟨status, message, hchat⟩ := exists_of_checkAnswer hattempt
      exact onlyExceptions_error (endpoint.unreadable_isException _ _ _ _ _ hchat)

theorem onlyExceptions_parseItems (items : List Json) (result : Segments) :
    OnlyExceptions (classifier.parseItems expectedIds items result) := by
  induction items generalizing result with
  | nil => exact onlyExceptions_ok result
  | cons item items ih =>
    unfold parseItems productIdOf segmentRawOf
    refine OnlyExceptions.bind ((onlyExceptions_get item _ _).bind fun value =>
      onlyExceptions_ok _) fun productId => ?_
    refine OnlyExceptions.bind ((onlyExceptions_get item _ _).bind fun value =>
      onlyExceptions_ok _) fun segmentRaw => ?_
    split_ifs
    · exact ih _
    · exact ih _

/-! ### One batch -/

theorem mem_idsOf {id : Str} : id ∈ idsOf batch ↔ ∃ product ∈ batch, product.id = id := by
  unfold idsOf
  rw [List.mem_toFinset, List.mem_map]

/-- What the `try` block of `_classify_batch` comes to. -/
def batchResult (classifier : OpenAiSegmentClassifier) (endpoint : LlmEndpoint) (call : ℕ)
    (batch : List Product) : Except PyError Segments := do
  let body ← classifier.answer endpoint call
  let content ← contentOf body
  classifier.parseSegments content (idsOf batch)

/-- The segments of a batch, from the items of its answer. -/
def segmentsOf (classifier : OpenAiSegmentClassifier) (batch : List Product) (items : List Json) :
    Except PyError Segments := do
  let result ← classifier.parseItems (idsOf batch) items fun _ => none
  pure (fillMissing (idsOf batch) result)

theorem batchResult_eq (call : ℕ) (batch : List Product) :
    classifier.batchResult endpoint call batch =
      classifier.answerItems endpoint call >>= classifier.segmentsOf batch := by
  unfold batchResult answerItems parseSegments segmentsOf
  simp only [bind_assoc]

theorem onlyExceptions_batchResult :
    OnlyExceptions (classifier.batchResult endpoint call batch) := by
  unfold batchResult parseSegments
  refine onlyExceptions_answer.bind fun body => ?_
  refine (onlyExceptions_contentOf body).bind fun content => ?_
  refine (onlyExceptions_loadsValue _ content).bind fun parsed => ?_
  refine (onlyExceptions_itemsOf parsed).bind fun items => ?_
  exact (onlyExceptions_parseItems items _).bind fun result => onlyExceptions_ok _

/-- Without entries, the answer gives nothing. -/
theorem labels_of_entries_none (h : classifier.entries endpoint call = none) :
    classifier.labels endpoint call batch = fallback batch := by
  funext id
  unfold labels label given fallback
  rw [h]
  rfl

/-- The entries of an answer give each product of a batch its segment. -/
theorem labels_of_entries {entries : List (List (Str × Json))}
    (h : classifier.entries endpoint call = some entries) :
    classifier.labels endpoint call batch =
      fillMissing (idsOf batch) fun id =>
        if id ∈ idsOf batch then
          ((classifier.lastEntry id entries).map fun entry =>
            (classifier.segmentOf entry).getD .standard).or none
        else none := by
  funext id
  unfold labels label given fillMissing
  rw [h]
  by_cases hid : id ∈ idsOf batch
  · simp only [if_pos hid, Option.or_none, Option.bind_eq_bind, Option.bind_some]
    cases classifier.lastEntry id entries <;> rfl
  · simp only [if_neg hid]

variable (classifier endpoint) in
/-- The `try` block, or the fallback. -/
theorem batchResult_spec (call : ℕ) (batch : List Product) :
    classifier.batchResult endpoint call batch = .ok (classifier.labels endpoint call batch) ∨
      (∃ exc, classifier.batchResult endpoint call batch = .error exc) ∧
        classifier.labels endpoint call batch = fallback batch := by
  rw [batchResult_eq]
  cases hitems : classifier.answerItems endpoint call with
  | error exc =>
    have hnone : classifier.entries endpoint call = none := by
      unfold entries
      rw [hitems]
      rfl
    exact Or.inr ⟨⟨exc, rfl⟩, labels_of_entries_none hnone⟩
  | ok items =>
    cases hfields : fieldsOf items with
    | none =>
      have hnone : classifier.entries endpoint call = none := by
        unfold entries
        rw [hitems]
        exact hfields
      obtain ⟨exc, hexc⟩ :=
        parseItems_of_fieldsOf_none classifier (idsOf batch) hfields fun _ => none
      refine Or.inr ⟨⟨exc, ?_⟩, labels_of_entries_none hnone⟩
      show classifier.segmentsOf batch items = _
      rw [segmentsOf, hexc]
      rfl
    | some entries =>
      have hsome : classifier.entries endpoint call = some entries := by
        unfold OpenAiSegmentClassifier.entries
        rw [hitems]
        exact hfields
      refine Or.inl ?_
      show classifier.segmentsOf batch items = _
      rw [segmentsOf, parseItems_of_fieldsOf hfields, labels_of_entries hsome]
      rfl

theorem run_httpPost (post : LlmPost) (posts : List LlmPost) :
    (classifier.httpPost endpoint post).run posts =
      (liftResult (answerFrom
        (fun attempt => checkAnswer (endpoint.chat posts.length attempt))
        (classifier.settings.httpMaxRetries - 1).toNat 0)).run (posts ++ [post]) := by
  rw [← run_retryFrom_liftResult]
  rfl

variable (classifier endpoint) in
/-- The `try` block makes the POST. -/
theorem run_tryBlock (batch : List Product) (posts : List LlmPost) :
    (do
      let response ← classifier.httpPost endpoint (classifier.postOf batch)
      let body ← liftResult response
      let content ← liftResult (contentOf body)
      liftResult (classifier.parseSegments content (idsOf batch))).run posts =
      (liftResult (classifier.batchResult endpoint posts.length batch)).run
        (posts ++ [classifier.postOf batch]) := by
  have hresult : classifier.batchResult endpoint posts.length batch =
      answerFrom (fun attempt => checkAnswer (endpoint.chat posts.length attempt))
        (classifier.settings.httpMaxRetries - 1).toNat 0 >>= fun response =>
          response >>= fun body => contentOf body >>= fun content =>
            classifier.parseSegments content (idsOf batch) := by
    unfold batchResult answer
    rw [bind_assoc]
  rw [hresult, EStateM.run_bind, run_httpPost]
  cases answerFrom (fun attempt => checkAnswer (endpoint.chat posts.length attempt))
    (classifier.settings.httpMaxRetries - 1).toNat 0 with
  | error exc => rfl
  | ok response =>
    simp only [run_liftResult_ok, liftResult_bind]
    rfl

/-- A batch makes one POST, and never raises. -/
theorem run_classifyBatch (batch : List Product) (posts : List LlmPost) :
    (classifier.classifyBatch endpoint batch).run posts =
      .ok (classifier.labels endpoint posts.length batch)
        (posts ++ [classifier.postOf batch]) := by
  have htry := run_tryBlock classifier endpoint batch posts
  unfold classifyBatch
  show EStateM.tryCatch _ _ posts = _
  unfold EStateM.tryCatch
  rw [EStateM.run] at htry
  rw [htry]
  rcases batchResult_spec classifier endpoint posts.length batch with
    hok | ⟨⟨exc, herror⟩, hlabels⟩
  · rw [hok]
    rfl
  · have hexc := onlyExceptions_batchResult exc herror
    rw [herror, hlabels]
    dsimp only [liftResult]
    show (if exc.isException = true then _ else _ : LlmM Segments) _ = _
    rw [if_pos hexc]
    rfl

/-! ### All batches -/

/-- The segments after the batches from POST number `call` on. -/
def labelsFrom (classifier : OpenAiSegmentClassifier) (endpoint : LlmEndpoint) :
    ℕ → List (List Product) → Segments → Segments
  | _, [], segments => segments
  | call, batch :: batches, segments =>
    labelsFrom classifier endpoint (call + 1) batches fun id =>
      (classifier.labels endpoint call batch id).or (segments id)

theorem run_classifyBatches (batches : List (List Product)) (segments : Segments)
    (posts : List LlmPost) :
    (classifier.classifyBatches endpoint batches segments).run posts =
      .ok (classifier.labelsFrom endpoint posts.length batches segments)
        (posts ++ batches.map classifier.postOf) := by
  -- a batch never raises, so that every batch is posted, whatever became of the ones before it
  induction batches generalizing segments posts with
  | nil =>
    rw [List.map_nil, List.append_nil]
    rfl
  | cons batch batches ih =>
    unfold classifyBatches
    rw [EStateM.run_bind, run_classifyBatch]
    show (classifier.classifyBatches endpoint batches _).run _ = _
    rw [ih, List.length_append, List.length_singleton, List.append_assoc, List.map_cons]
    rfl

/-- A batch without a product leaves its segment alone. -/
theorem labelsFrom_of_not_mem {batches : List (List Product)} {id : Str}
    (h : ∀ batch ∈ batches, id ∉ idsOf batch) (segments : Segments) (call : ℕ) :
    classifier.labelsFrom endpoint call batches segments id = segments id := by
  induction batches generalizing segments call with
  | nil => rfl
  | cons batch batches ih =>
    have hnot : id ∉ idsOf batch := h batch List.mem_cons_self
    have hrest : ∀ batch ∈ batches, id ∉ idsOf batch :=
      fun batch hbatch => h batch (List.mem_cons_of_mem _ hbatch)
    unfold labelsFrom
    rw [ih hrest, labels, if_neg hnot, Option.none_or]

/-- The last batch with a product decides. -/
theorem labelsFrom_of_mem {batches : List (List Product)} {id : Str} {k : ℕ}
    (hbatch : batches[k]? = some batch) (hid : id ∈ idsOf batch)
    (hlater : ∀ j batch, k < j → batches[j]? = some batch → id ∉ idsOf batch)
    (segments : Segments) (call : ℕ) :
    classifier.labelsFrom endpoint call batches segments id =
      some (classifier.label endpoint (call + k) id) := by
  -- the label is set by the batch at `k`, and the later ones do not know the product
  induction batches generalizing segments call k with
  | nil => simp at hbatch
  | cons head batches ih =>
    unfold labelsFrom
    cases k with
    | zero =>
      obtain rfl : head = batch := by simpa using hbatch
      have hrest : ∀ batch ∈ batches, id ∉ idsOf batch := by
        intro batch hmem
        obtain ⟨j, hj⟩ := List.getElem?_of_mem hmem
        exact hlater (j + 1) batch (Nat.succ_pos j) (by simpa using hj)
      rw [labelsFrom_of_not_mem hrest, labels, if_pos hid, Option.some_or, Nat.add_zero]
    | succ k =>
      have hrest : ∀ j batch, k < j → batches[j]? = some batch → id ∉ idsOf batch :=
        fun j batch hj hget => hlater (j + 1) batch (Nat.succ_lt_succ hj) (by simpa using hget)
      rw [ih (by simpa using hbatch) hrest, Nat.add_assoc, Nat.add_comm 1 k]

/-! ### `classify` -/

variable {products : List Product}

/-- The products with the segments that the POSTs from number `call` on give them. -/
def enrich (classifier : OpenAiSegmentClassifier) (endpoint : LlmEndpoint) (call : ℕ)
    (products : List Product) : List EnrichedProduct :=
  products.mapIdx fun i product =>
    { toProduct := product
      segment := classifier.label endpoint
        (call + i / classifier.settings.llmBatchSize.toNat) product.id }

theorem getElem?_enrich (classifier : OpenAiSegmentClassifier) (endpoint : LlmEndpoint) (call : ℕ)
    (products : List Product) (i : ℕ) :
    (classifier.enrich endpoint call products)[i]? = products[i]?.map fun product =>
      { toProduct := product
        segment := classifier.label endpoint
          (call + i / classifier.settings.llmBatchSize.toNat) product.id } := by
  rw [enrich, List.getElem?_mapIdx]

theorem map_toProduct_enrich (classifier : OpenAiSegmentClassifier) (endpoint : LlmEndpoint)
    (call : ℕ) (products : List Product) :
    (classifier.enrich endpoint call products).map EnrichedProduct.toProduct = products := by
  apply List.ext_getElem?
  intro i
  rw [List.getElem?_map, getElem?_enrich]
  cases products[i]? <;> rfl

/-- A product is in one batch only. -/
theorem labelsFrom_chunks {size i : ℕ} {product : Product} (hsize : 0 < size)
    (hnodup : (products.map Product.id).Nodup) (hget : products[i]? = some product)
    (segments : Segments) (call : ℕ) :
    classifier.labelsFrom endpoint call (chunks size products) segments product.id =
      some (classifier.label endpoint (call + i / size) product.id) := by
  obtain ⟨batch, hbatch, hmem⟩ := mem_of_getElem?_chunks hsize hget
  refine labelsFrom_of_mem hbatch (mem_idsOf.mpr ⟨product, hmem, rfl⟩) ?_ segments call
  intro j later hj hlater hid
  obtain ⟨other, hother, hsame⟩ := mem_idsOf.mp hid
  obtain ⟨m, hm, rfl⟩ := exists_of_mem_chunks hlater hother
  -- both positions have the id
  have hi : (products.map Product.id)[i]? = some product.id := by
    rw [List.getElem?_map, hget, Option.map_some]
  have hm' : (products.map Product.id)[m]? = some product.id := by
    rw [List.getElem?_map, hm, Option.map_some, hsame]
  obtain ⟨hilt, -⟩ := List.getElem?_eq_some_iff.mp hi
  have him : i = m := (List.getElem?_inj hilt hnodup).mp (hi.trans hm'.symm)
  rw [him] at hj
  exact lt_irrefl _ hj

variable (classifier endpoint) in
/-- **`classify` with the LLM**: it never raises, makes one POST for each batch, and gives each
product what the answer to the POST of its batch gives it. -/
theorem run_classify (hlive : classifier.settings.mockLlm = false)
    (hsize : 1 ≤ classifier.settings.llmBatchSize) (hnodup : (products.map Product.id).Nodup)
    (posts : List LlmPost) :
    (classifier.classify endpoint products).run posts =
      .ok (classifier.enrich endpoint posts.length products)
        (posts ++ (chunks classifier.settings.llmBatchSize.toNat products).map
          classifier.postOf) := by
  have hpos : 0 < classifier.settings.llmBatchSize.toNat := by omega
  unfold classify
  by_cases hnil : products = []
  · rw [if_pos hnil, hnil]
    have hzero : (0 + classifier.settings.llmBatchSize.toNat - 1) /
        classifier.settings.llmBatchSize.toNat = 0 := Nat.div_eq_of_lt (by omega)
    unfold chunks
    rw [List.length_nil, hzero]
    simp [enrich]
  · have hchunk : chunk products classifier.settings.llmBatchSize =
        .ok (chunks classifier.settings.llmBatchSize.toNat products) :=
      if_neg (by omega)
    rw [if_neg hnil, if_neg (by simp [hlive]), hchunk, EStateM.run_bind, run_liftResult_ok]
    dsimp only
    rw [EStateM.run_bind, run_classifyBatches]
    show EStateM.Result.ok _ _ = _
    congr 1
    refine List.ext_getElem? fun i => ?_
    rw [List.getElem?_map, getElem?_enrich]
    cases hget : products[i]? with
    | none => rfl
    | some product =>
      rw [Option.map_some, Option.map_some, labelsFrom_chunks hpos hnodup hget]
      rfl

end MarketplacePipeline.OpenAiSegmentClassifier
