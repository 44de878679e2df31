import MarketplacePipeline.Pipeline.Equiv.ClassifyBatches
import MarketplacePipeline.Pipeline.LlmConversation
import MarketplacePipeline.Python.Equiv.JsonDumps

/-!
# Labels come back as the LLM gave them

The LLM reads from the message what `_classify_batch` has put there (`readContent_userContent`), and
`_parse_segments` reads from the answer what the LLM has put there.  So with an LLM that follows its
prompt, `classify` gives each product the label of its item (`classify_labels`): no text in a
product can pass for a part of the message.
-/

namespace MarketplacePipeline.OpenAiSegmentClassifier

open HttpClient Chunks JsonDumps JsonLoads JsonGrammar

variable {float message : Str → Str} {label : LlmItem → PriceSegment}

/-! ### The message of the user -/

theorem wellFormed_itemJson (item : LlmItem) : WellFormed float (itemJson item) := by
  refine .dict (by simp only [List.map_cons, List.map_nil]; decide) fun field hfield => ?_
  simp only [List.mem_cons, List.not_mem_nil, or_false] at hfield
  rcases hfield with rfl | rfl | rfl <;> exact .str _

theorem wellFormed_items (items : List LlmItem) :
    WellFormed float (.dict [("items".toList, .list (items.map itemJson))]) := by
  refine .dict (by simp) fun field hfield => ?_
  obtain rfl := List.mem_singleton.mp hfield
  refine .list fun value hvalue => ?_
  obtain ⟨item, -, rfl⟩ := List.mem_map.mp hvalue
  exact wellFormed_itemJson item

theorem readItem_itemJson (item : LlmItem) : readItem (itemJson item) = some item := rfl

theorem mapM_readItem (items : List LlmItem) :
    (items.map itemJson).mapM readItem = some items := by
  induction items with
  | nil => rfl
  | cons item items ih =>
    rw [List.map_cons, List.mapM_cons, readItem_itemJson, ih]
    rfl

/-- The LLM reads the items that were sent. -/
theorem readContent_userContent (items : List LlmItem) :
    readContent float message (userContent items) = some items := by
  unfold readContent userContent
  rw [loads_dumps .oneLine message (wellFormed_items items)]
  exact mapM_readItem items

/-! ### The answer -/

/-- What is read from an answer that follows the prompt. -/
theorem exists_loads_of_followsPrompt {items : List LlmItem} {text : Str}
    (h : FollowsPrompt float message label (userContent items) text) :
    ∃ parsed, loads float message text = .ok parsed ∧
      itemsOf parsed = .ok (items.map fun item => .dict (entryFields label item)) := by
  cases h with
  | array hread htext =>
    rw [readContent_userContent] at hread
    obtain rfl := Option.some.inj hread
    exact ⟨_, loads_of_textOf message htext, rfl⟩
  | object hread htext =>
    rw [readContent_userContent] at hread
    obtain rfl := Option.some.inj hread
    exact ⟨_, loads_of_textOf message htext, rfl⟩

theorem fieldsOf_map_dict (entries : List (List (Str × Json))) :
    fieldsOf (entries.map Json.dict) = some entries := by
  induction entries with
  | nil => rfl
  | cons entry entries ih => rw [List.map_cons, fieldsOf, ih, Option.map_some]

variable {classifier : OpenAiSegmentClassifier} {endpoint : LlmEndpoint} {call : ℕ}

theorem answer_of_response {failures status : ℕ} {body : Json} {reason : Str}
    (hmore : failures ≤ (classifier.settings.httpMaxRetries - 1).toNat)
    (hfailures : ∀ attempt < failures, ∃ exc,
      checkAnswer (endpoint.chat call attempt) = .error exc ∧ isRetryable exc = true)
    (hchat : endpoint.chat call failures = .response status (.ok body) reason)
    (hstatus : 200 ≤ status ∧ status ≤ 299) : classifier.answer endpoint call = .ok body := by
  have hcheck : checkAnswer (endpoint.chat call failures) = .ok (.ok body) := by
    rw [hchat]
    show (if status = 429 then _ else if 200 ≤ status ∧ status ≤ 299 then _ else _) = _
    rw [if_neg (by omega), if_pos hstatus]
  have hfrom := answerFrom_of_retries 0 hmore
    (fun i hi => by simpa using hfailures i hi) (by simpa using hcheck)
  unfold answer
  rw [hfrom]
  rfl

/-- The entries of a reply are those that the LLM has written. -/
theorem entries_of_replies (hloads : classifier.json.loads = loads float message)
    {items : List LlmItem}
    (h : Replies float message label classifier.settings endpoint call (userContent items)) :
    classifier.entries endpoint call = some (items.map (entryFields label)) := by
  obtain ⟨failures, hmore, hfailures, status, body, reason, text, hchat, hlow, hhigh, hcontent,
    hfollows⟩ := h
  obtain ⟨parsed, hparsed, hitems⟩ := exists_loads_of_followsPrompt hfollows
  have hanswer := answer_of_response hmore hfailures hchat ⟨hlow, hhigh⟩
  have hanswerItems : classifier.answerItems endpoint call =
      .ok ((items.map (entryFields label)).map Json.dict) := by
    unfold answerItems
    rw [hanswer, List.map_map]
    show (contentOf body >>= fun content => classifier.json.loadsValue content >>= itemsOf) = _
    rw [hcontent]
    show (classifier.json.loads text >>= itemsOf) = _
    rw [hloads, hparsed]
    exact hitems
  unfold entries
  rw [hanswerItems]
  exact fieldsOf_map_dict _

/-! ### The labels -/

theorem ofValue_strip_value (segment : PriceSegment) :
    PriceSegment.ofValue segment.value.strip = some segment := by cases segment <;> decide

theorem lastEntry_entryFields {items : List LlmItem} {item : LlmItem} (hitem : item ∈ items)
    (hids : ∀ other ∈ items, other.id = item.id → other = item) :
    classifier.lastEntry item.id (items.map (entryFields label)) =
      some (entryFields label item) := by
  unfold lastEntry
  have hfieldText : ∀ other : LlmItem,
      classifier.fieldText "id".toList (entryFields label other) = other.id := fun _ => rfl
  cases hfind : (items.map (entryFields label)).reverse.find? fun entry =>
      classifier.fieldText "id".toList entry = item.id with
  | none =>
    have hnone := List.find?_eq_none.mp hfind (entryFields label item)
      (List.mem_reverse.mpr (List.mem_map_of_mem hitem))
    rw [hfieldText] at hnone
    simp at hnone
  | some entry =>
    obtain ⟨other, hother, rfl⟩ :=
      List.mem_map.mp (List.mem_reverse.mp (List.mem_of_find?_eq_some hfind))
    have hid := List.find?_some hfind
    rw [hfieldText, decide_eq_true_eq] at hid
    rw [hids other hother hid]

/-- A reply gives every product of its batch the label of its item. -/
theorem label_of_replies (hloads : classifier.json.loads = loads float message)
    {batch : List Product}
    (h : Replies float message label classifier.settings endpoint call
      (userContent (batch.map itemOf)))
    {product : Product} (hproduct : product ∈ batch)
    (hids : ∀ other ∈ batch, other.id = product.id → other = product) :
    classifier.label endpoint call product.id = label (itemOf product) := by
  have hlast : classifier.lastEntry (itemOf product).id
      ((batch.map itemOf).map (entryFields label)) = some (entryFields label (itemOf product)) := by
    refine lastEntry_entryFields (List.mem_map_of_mem hproduct) fun other hother hid => ?_
    obtain ⟨product', hproduct', rfl⟩ := List.mem_map.mp hother
    rw [hids product' hproduct' hid]
  unfold OpenAiSegmentClassifier.label given
  rw [entries_of_replies hloads h]
  show ((classifier.lastEntry (itemOf product).id _ >>= classifier.segmentOf).getD .standard) = _
  rw [hlast]
  show ((PriceSegment.ofValue (label (itemOf product)).value.strip).getD .standard) = _
  rw [ofValue_strip_value, Option.getD_some]

/-- **The labels of the LLM**: if every batch is answered as the prompt asks for, then `classify`
gives each product the label of its item, whatever stands in the products and in whatever notation
the answers are written; and the message of each POST is read as the items of its batch. -/
theorem classify_labels (hlive : classifier.settings.mockLlm = false)
    (hsize : 1 ≤ classifier.settings.llmBatchSize)
    (hloads : classifier.json.loads = loads float message) {products : List Product}
    (hnodup : (products.map Product.id).Nodup) {before : List LlmPost}
    (hreplies : ∀ k batch,
      (chunks classifier.settings.llmBatchSize.toNat products)[k]? = some batch →
        Replies float message label classifier.settings endpoint (before.length + k)
          (userContent (batch.map itemOf))) :
    (classifier.classify endpoint products).run before =
        .ok (products.map fun product =>
            { toProduct := product, segment := label (itemOf product) })
          (before ++ (chunks classifier.settings.llmBatchSize.toNat products).map
            classifier.postOf) ∧
      ∀ batch ∈ chunks classifier.settings.llmBatchSize.toNat products,
        readContent float message (userContent (classifier.postOf batch).items) =
          some (batch.map itemOf) := by
  refine ⟨?_, fun batch _ => readContent_userContent (batch.map itemOf)⟩
  rw [run_classify classifier endpoint hlive hsize hnodup before]
  congr 1
  refine List.ext_getElem? fun i => ?_
  rw [getElem?_enrich, List.getElem?_map]
  cases hget : products[i]? with
  | none => rfl
  | some product =>
    have hpos : 0 < classifier.settings.llmBatchSize.toNat := by omega
    -- the label of a product comes from the reply to its own batch
    obtain ⟨batch, hbatch, hmem⟩ := mem_of_getElem?_chunks hpos hget
    have hsame : ∀ other ∈ batch, other.id = product.id → other = product := by
      intro other hother hid
      obtain ⟨j, hj, -⟩ := exists_of_mem_chunks hbatch hother
      exact List.inj_on_of_nodup_map hnodup (List.mem_of_getElem? hj) (List.mem_of_getElem? hget)
        hid
    rw [Option.map_some, Option.map_some,
      label_of_replies hloads (hreplies _ batch hbatch) hmem hsame]

/-! ### A product that talks to the LLM -/

/-- Batches of two, and a second attempt. -/
def talkative : OpenAiSegmentClassifier where
  settings := { llmBatchSize := 2, httpMaxRetries := 2 }
  json := jsonText id (fun _ => "Expecting value: line 1 column 1 (char 0)".toList) fun _ => []
  lower text := text.map Char.toLower

/-- A phone whose name looks like the rest of the message. -/
def quotedPhone (id : Str) : Product :=
  { listedPhone id with name := "Phone\"\x7d], \"items\": [\n".toList }

/-- A phone is Premium if its id is `1`. -/
def labelPhone (item : LlmItem) : PriceSegment :=
  if item.id = ['1'] then .premium else .economy

/-- The batches of three phones. -/
def batchOf (call : ℕ) : List Product :=
  if call = 0 then [quotedPhone ['1'], quotedPhone ['2']] else [quotedPhone ['3']]

/-- The first attempt for the second batch is refused. -/
def followingEndpoint : LlmEndpoint where
  chat call attempt :=
    if call = 1 ∧ attempt = 0 then .response 429 (.ok .null) "429".toList
    else
      .response 200 (.ok (completion (dumps (.indented 2)
        (entriesJson labelPhone ((batchOf call).map itemOf))))) "200".toList
  raised_isException call attempt exc h := by split_ifs at h
  unreadable_isException call attempt status exc message h := by split_ifs at h <;> cases h

theorem wellFormed_entriesJson (items : List LlmItem) :
    WellFormed float (entriesJson label items) := by
  refine .list fun value hvalue => ?_
  obtain ⟨item, -, rfl⟩ := List.mem_map.mp hvalue
  refine .dict (by simp only [entryFields, List.map_cons, List.map_nil]; decide)
    fun field hfield => ?_
  simp only [entryFields, List.mem_cons, List.not_mem_nil, or_false] at hfield
  rcases hfield with rfl | rfl <;> exact .str _

theorem replies_followingEndpoint (call : ℕ) :
    Replies id (fun _ => "Expecting value: line 1 column 1 (char 0)".toList) labelPhone
      talkative.settings followingEndpoint call (userContent ((batchOf call).map itemOf)) := by
  refine ⟨if call = 1 then 1 else 0, ?_, fun attempt hattempt => ?_, 200, completion _,
    "200".toList, _, ?_, by decide, by decide, rfl, .array (readContent_userContent _)
      (textOf_dumps (.indented 2) (wellFormed_entriesJson ((batchOf call).map itemOf)))⟩
  · split_ifs <;> decide
  · split_ifs at hattempt with hcall
    · obtain rfl : attempt = 0 := by omega
      exact ⟨rateLimitError, by rw [hcall]; rfl, rfl⟩
    · omega
  · split_ifs with hcall
    · rw [hcall]
      rfl
    · exact if_neg fun h => hcall h.1

theorem classify_labels_talkative :
    (talkative.classify followingEndpoint
        [quotedPhone ['1'], quotedPhone ['2'], quotedPhone ['3']]).run [] =
        .ok ([quotedPhone ['1'], quotedPhone ['2'], quotedPhone ['3']].map fun product =>
            { toProduct := product, segment := labelPhone (itemOf product) })
          ([] ++ (chunks 2 [quotedPhone ['1'], quotedPhone ['2'], quotedPhone ['3']]).map
            talkative.postOf) ∧
      ∀ batch ∈ chunks 2 [quotedPhone ['1'], quotedPhone ['2'], quotedPhone ['3']],
        readContent id (fun _ => "Expecting value: line 1 column 1 (char 0)".toList)
          (userContent (talkative.postOf batch).items) = some (batch.map itemOf) :=
  classify_labels rfl (by decide) rfl (by decide) fun k batch hbatch => by
    have hk : [batchOf 0, batchOf 1][k]? = some batch := hbatch
    rw [List.length_nil, Nat.zero_add]
    match k with
    | 0 | 1 =>
      obtain rfl := Option.some.inj hk
      exact replies_followingEndpoint _
    | k + 2 => cases hk

end MarketplacePipeline.OpenAiSegmentClassifier
