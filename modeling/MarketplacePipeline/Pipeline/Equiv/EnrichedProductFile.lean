import MarketplacePipeline.Pipeline.EnrichedProductFile
import MarketplacePipeline.Python.Equiv.FloatRepr

/-!
# Reading back the enriched products

What `save` writes is read as the collection and the products that were saved
(`readDataset_content`): the prices digit for digit, the times to the microsecond, and whatever
characters are in the texts.
-/

namespace MarketplacePipeline

open JsonDumps JsonLoads JsonGrammar

/-- What the fields of a product are validated for: the price is a float that is not negative, and
the time is one that a `datetime` has. -/
structure Product.Valid (p : Product) : Prop where
  price : PyFloat.IsMagnitude p.price
  nonneg : 0 ≤ p.price
  collectedAt : DateTimeFields.InRange p.collectedAt

/-- The products are valid, and `int` has read the numbers from a text. -/
structure CollectionResult.Valid (collection : CollectionResult) : Prop where
  products : ∀ p ∈ collection.products, p.Valid
  targetCount : (Nat.toDigits 10 collection.targetCount.natAbs).length ≤ 4300
  collectedCount : (Nat.toDigits 10 collection.collectedCount).length ≤ 4300

namespace JsonEnrichedProductRepository

/-! ### Values -/

theorem readPrice_repr {p : Product} (h : p.Valid) :
    readPrice (.float (PyFloat.repr (.ofRat p.price))) = some p.price := by
  rw [PyFloat.repr_ofRat h.price h.nonneg]
  exact PyFloat.magnitude_floatOfRepr h.price h.nonneg

theorem readTime_isoformatZ {p : Product} (h : p.Valid) :
    readTime (.str (DateTimeFields.utc p.collectedAt).isoformatZ) = some p.collectedAt :=
  readZ_isoformatZ h.collectedAt

theorem readSegment_value (segment : PriceSegment) :
    readSegment (.str segment.value) = some segment := by
  cases segment <;> decide

theorem readMessage_ofOption (message : Option Str) :
    readMessage (.ofOption message) = some message := by
  cases message <;> rfl

theorem readList_map {α β : Type} {read : Json → Option β} {dump : α → Json} {f : α → β}
    {xs : List α} (h : ∀ x ∈ xs, read (dump x) = some (f x)) :
    readList read (.list (xs.map dump)) = some (xs.map f) := by
  show (xs.map dump).mapM read = some (xs.map f)
  induction xs with
  | nil => rfl
  | cons x xs ih =>
    rw [List.map_cons, List.mapM_cons, h x List.mem_cons_self,
      ih fun y hy => h y (List.mem_cons_of_mem x hy)]
    rfl

/-! ### Objects -/

/-- The fields of a product are read from any object that begins with them. -/
theorem readProduct_append {p : Product} (h : p.Valid) (fields : List (Str × Json)) :
    readProduct (.dict (p.modelDump ++ fields)) = some p := by
  have hprice : field "price" readPrice (.dict (p.modelDump ++ fields)) = some p.price :=
    readPrice_repr h
  have htime : field "collected_at" readTime (.dict (p.modelDump ++ fields)) = some p.collectedAt :=
    readTime_isoformatZ h
  unfold readProduct
  rw [hprice, htime]
  rfl

theorem readEnriched_modelDump {p : EnrichedProduct} (h : p.toProduct.Valid) :
    readEnriched (.dict p.modelDump) = some p := by
  have hsegment : field "segment" readSegment (.dict p.modelDump) = some p.segment :=
    readSegment_value p.segment
  unfold readEnriched
  rw [EnrichedProduct.modelDump, readProduct_append h, ← EnrichedProduct.modelDump, hsegment]
  rfl

theorem readCollection_modelDump {collection : CollectionResult} (h : collection.Valid) :
    readCollection (.dict collection.modelDump) = some collection := by
  have hproducts : field "products" (readList readProduct) (.dict collection.modelDump) =
      some collection.products := by
    have hread : ∀ p ∈ collection.products, readProduct (.dict p.modelDump) = some (id p) := by
      intro p hp
      have happend := readProduct_append (h.products p hp) []
      rw [List.append_nil] at happend
      exact happend
    have hmap := readList_map hread
    rw [List.map_id] at hmap
    exact hmap
  have hmessage : field "error_message" readMessage (.dict collection.modelDump) =
      some collection.errorMessage := readMessage_ofOption collection.errorMessage
  unfold readCollection
  rw [hproducts, hmessage]
  rfl

/-! ### The text -/

theorem wellFormed_ofOption (message : Option Str) : WellFormed floatRepr (.ofOption message) := by
  cases message with
  | none => exact .null
  | some text => exact .str text

theorem wellFormed_modelDump {p : Product} (h : p.Valid) :
    ∀ field ∈ p.modelDump, WellFormed floatRepr field.2 := by
  have hprice : WellFormed floatRepr (.float (PyFloat.repr (.ofRat p.price))) := by
    rw [PyFloat.repr_ofRat h.price h.nonneg]
    exact .float (PyFloat.numberText_reprMagnitude h.price h.nonneg)
  unfold Product.modelDump
  simp only [List.forall_mem_cons]
  exact ⟨.str _, .str _, hprice, .str _, .str _, .str _, .str _, .str _, fun _ h => by cases h⟩

theorem wellFormed_product {p : Product} (h : p.Valid) :
    WellFormed floatRepr (.dict p.modelDump) := by
  refine .dict ?_ (wellFormed_modelDump h)
  show ["id".toList, "name".toList, "price".toList, "currency".toList, "url".toList,
    "category".toList, "collected_at".toList, "description".toList].Nodup
  decide

theorem wellFormed_enriched {p : EnrichedProduct} (h : p.toProduct.Valid) :
    WellFormed floatRepr (.dict p.modelDump) := by
  refine .dict ?_ fun field hfield => ?_
  · show ["id".toList, "name".toList, "price".toList, "currency".toList, "url".toList,
      "category".toList, "collected_at".toList, "description".toList, "segment".toList].Nodup
    decide
  · rcases List.mem_append.mp hfield with hproduct | hsegment
    · exact wellFormed_modelDump h field hproduct
    · rw [List.mem_singleton.mp hsegment]
      exact .str _

theorem wellFormed_collection {collection : CollectionResult} (h : collection.Valid) :
    WellFormed floatRepr (.dict collection.modelDump) := by
  have hproducts : WellFormed floatRepr
      (.list (collection.products.map fun p => .dict p.modelDump)) := by
    refine .list fun item hitem => ?_
    obtain ⟨p, hp, rfl⟩ := List.mem_map.mp hitem
    exact wellFormed_product (h.products p hp)
  refine .dict ?_ ?_
  · show ["products".toList, "target_count".toList, "collected_count".toList, "exhausted".toList,
      "degraded".toList, "error_message".toList].Nodup
    decide
  · unfold CollectionResult.modelDump
    simp only [List.forall_mem_cons]
    exact ⟨hproducts, .int h.targetCount, .int h.collectedCount, .bool _, .bool _,
      wellFormed_ofOption _, fun _ h => by cases h⟩

variable {products : List EnrichedProduct} {collection : CollectionResult}

theorem wellFormed_payload (hproducts : ∀ p ∈ products, p.toProduct.Valid)
    (hcollection : collection.Valid) : WellFormed floatRepr (payload products collection) := by
  refine .dict ?_ ?_
  · show ["meta".toList, "products".toList].Nodup
    decide
  · simp only [List.forall_mem_cons]
    refine ⟨wellFormed_collection hcollection, .list fun item hitem => ?_, fun _ h => by cases h⟩
    obtain ⟨p, hp, rfl⟩ := List.mem_map.mp hitem
    exact wellFormed_enriched (hproducts p hp)

/-- **Round trip**: a file holds the collection and the products that it was written for. -/
theorem readDataset_content (hproducts : ∀ p ∈ products, p.toProduct.Valid)
    (hcollection : collection.Valid) :
    readDataset (content products collection) = some (collection, products) := by
  have hload := loads_dumps (.indented 2) (fun _ => []) (wellFormed_payload hproducts hcollection)
  have hmeta : field "meta" readCollection (payload products collection) = some collection :=
    readCollection_modelDump hcollection
  have henriched : field "products" (readList readEnriched) (payload products collection) =
      some products := by
    have hread : ∀ p ∈ products, readEnriched (.dict p.modelDump) = some (id p) :=
      fun p hp => readEnriched_modelDump (hproducts p hp)
    have hmap := readList_map hread
    rw [List.map_id] at hmap
    exact hmap
  unfold readDataset content
  rw [Str.decodeUtf8_encodeUtf8]
  simp only [Option.bind_eq_bind, Option.bind_some, hload, hmeta, henriched]
  rfl

/-! ### The file -/

/-- The file is written, the temporary one is gone, and the others are as they were. -/
theorem run_atomicWriteText (path : Str) (bytes : List UInt8) (files : Files Str (List UInt8)) :
    ∃ files', (atomicWriteText path bytes).run files = .ok () files' ∧
      ∀ n, files'.read n =
        if n = path then some bytes else if n = tmpPath path then none else files.read n := by
  have hopen := files.inode_openTruncate_self [] (tmpPath path)
  generalize hopened : files.openTruncate [] (tmpPath path) = opened at hopen
  cases hrename : (opened.2.write opened.1 bytes).rename (tmpPath path) path with
  | none =>
    rw [Files.rename_eq_none_iff, Files.inode_write, hopen] at hrename
    cases hrename
  | some files' =>
    refine ⟨files', ?_, fun n => ?_⟩
    · unfold atomicWriteText
      rw [run_bind_eq_ok_iff]
      refine ⟨opened.1, opened.2, by rw [← hopened]; rfl, ?_⟩
      rw [run_bind_eq_ok_iff]
      refine ⟨(), opened.2.write opened.1 bytes, rfl, ?_⟩
      rw [run_bind_eq_ok_iff]
      refine ⟨_, _, rfl, ?_⟩
      rw [hrename]
      rfl
    · obtain ⟨hnew, hold, hrest⟩ := Files.read_rename (tmpPath_ne path) hrename
      by_cases hpath : n = path
      · rw [if_pos hpath, hpath, hnew, Files.read, Files.inode_write, hopen, Option.map_some,
          Files.content_write_self]
      · rw [if_neg hpath]
        by_cases htmp : n = tmpPath path
        · rw [if_pos htmp, htmp, Files.read, hold]
          rfl
        · have hkept := files.read_openTruncate_of_ne [] htmp
          rw [if_neg htmp, hrest n htmp hpath, Files.read_write_of_ne bytes hopen htmp, ← hopened]
          exact hkept

/-- A save returns, and the file holds what was saved. -/
theorem run_save (outputDir : Str) (hproducts : ∀ p ∈ products, p.toProduct.Valid)
    (hcollection : collection.Valid) (files : Files Str (List UInt8)) :
    ∃ files', (save outputDir products collection).run files =
        .ok (outputPathIn outputDir) files' ∧
      ((files'.read (outputPathIn outputDir)).bind readDataset = some (collection, products)) ∧
      ∀ n, n ≠ outputPathIn outputDir → n ≠ tmpPath (outputPathIn outputDir) →
        files'.read n = files.read n := by
  obtain ⟨files', hrun, hread⟩ := run_atomicWriteText (outputPathIn outputDir)
    (content products collection) files
  refine ⟨files', ?_, ?_, fun n hn htmp => ?_⟩
  · exact run_bind_eq_ok_iff.mpr ⟨(), files', hrun, rfl⟩
  · rw [hread, if_pos rfl]
    exact readDataset_content hproducts hcollection
  · rw [hread, if_neg hn, if_neg htmp]

end JsonEnrichedProductRepository

end MarketplacePipeline
