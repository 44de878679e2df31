import Mathlib.Data.List.Infix

/-!
# Matching a pattern by backtracking

A pattern is a list of pieces: a word, or a run of characters of one class, which takes as many as
it can or, if it is lazy, as few.  A piece can match in several ways; they are tried in the order of
preference until the rest of the pattern matches what is left (`matchAt`).  `findall` collects the
groups of the matches of a text from left to right.

`Absent pattern block rest` says that no match begins within `block` when `rest` comes after it, so
that both a lazy gap and `findall` pass over the block (`matchAt_gap_append`, `findall_append`).
-/

namespace MarketplacePipeline.Backtracking

variable {α : Type*}

/-- A piece of a pattern. -/
inductive Piece (α : Type*)
  /-- The characters themselves. -/
  | word (w : List α)
  /-- `[P]{least,}` or, if it is lazy, `[P]{least,}?`; in parentheses if it is captured. -/
  | run (P : α → Bool) (least : ℕ) (lazy captured : Bool)

/-- `.*?`, where `.` is any character. -/
def gap : Piece α := .run (fun _ => true) 0 true false

/-- The ways to cut a text after characters of a class, the shortest first. -/
def cuts (P : α → Bool) : List α → List (List α × List α)
  | [] => [([], [])]
  | c :: text =>
    ([], c :: text) :: if P c then (cuts P text).map fun cut => (c :: cut.1, cut.2) else []

/-- The groups of a match that begins with a piece, of which it takes `taken`. -/
def Piece.capture : Piece α → List α → List (List α) → List (List α)
  | run _ _ _ true, taken, groups => taken :: groups
  | run _ _ _ false, _, groups => groups
  | word _, _, groups => groups

variable [DecidableEq α]

/-- The ways a piece matches at the start of a text, the preferred one first: what it takes and what
it leaves. -/
def Piece.ways : Piece α → List α → List (List α × List α)
  | word w, text => if w <+: text then [(w, text.drop w.length)] else []
  | run P least lazy _, text =>
    let long := (cuts P text).filter fun cut => least ≤ cut.1.length
    if lazy then long else long.reverse

/-- The match of a pattern at the start of a text: its groups and what it leaves. -/
def matchAt : List (Piece α) → List α → Option (List (List α) × List α)
  | [], text => some ([], text)
  | piece :: pattern, text =>
    (piece.ways text).findSome? fun way =>
      (matchAt pattern way.2).map (Prod.map (piece.capture way.1) id)

/-- The groups of the matches in a text whose first `skip` characters belong to a match before. -/
def findallFrom (pattern : List (Piece α)) : ℕ → List α → List (List (List α))
  | _, [] => []
  | skip + 1, _ :: text => findallFrom pattern skip text
  | 0, c :: text =>
    match matchAt pattern (c :: text) with
    | some (groups, rest) => groups :: findallFrom pattern (text.length - rest.length) text
    | none => findallFrom pattern 0 text

/-- The groups of the matches of a pattern, from left to right, for a pattern that takes at least
one character. -/
def findall (pattern : List (Piece α)) (text : List α) : List (List (List α)) :=
  findallFrom pattern 0 text

variable {pattern : List (Piece α)} {piece : Piece α} {P : α → Bool} {w block text rest : List α}
  {groups : List (List α)}

/-! ### The ways of a piece -/

omit [DecidableEq α] in
theorem mem_cuts {cut : List α × List α} (h : cut ∈ cuts P text) :
    cut.1 ++ cut.2 = text ∧ ∀ c ∈ cut.1, P c = true := by
  induction text generalizing cut with
  | nil =>
    rw [cuts, List.mem_singleton] at h
    rw [h]
    exact ⟨rfl, by simp⟩
  | cons c text ih =>
    rw [cuts, List.mem_cons] at h
    rcases h with rfl | h
    · exact ⟨rfl, by simp⟩
    · split_ifs at h with hc
      · obtain ⟨cut', hcut', rfl⟩ := List.mem_map.mp h
        obtain ⟨happend, hall⟩ := ih hcut'
        exact ⟨congrArg (c :: ·) happend, List.forall_mem_cons.mpr ⟨hc, hall⟩⟩
      · simp at h

/-- What a piece takes and what it leaves is the text. -/
theorem Piece.append_of_mem_ways {way : List α × List α} (h : way ∈ piece.ways text) :
    way.1 ++ way.2 = text := by
  cases piece with
  | word w =>
    rw [ways] at h
    split_ifs at h with hbegins
    · rw [List.mem_singleton.mp h]
      exact List.prefix_append_drop hbegins |>.symm
    · simp at h
  | run P least lazy captured =>
    rw [ways] at h
    have hmem : way ∈ (cuts P text).filter fun cut => least ≤ cut.1.length := by
      cases lazy with
      | true => exact h
      | false => exact List.mem_reverse.mp h
    exact (mem_cuts (List.mem_of_mem_filter hmem)).1

/-- What matches first one pattern and then another has a place where the other one matches. -/
theorem exists_of_matchAt_append {pattern' : List (Piece α)} {found : List (List α) × List α}
    (h : matchAt (pattern ++ pattern') text = some found) :
    ∃ rest found', rest <:+ text ∧ matchAt pattern' rest = some found' := by
  induction pattern generalizing text found with
  | nil => exact ⟨text, found, List.suffix_rfl, h⟩
  | cons piece pattern ih =>
    rw [List.cons_append, matchAt] at h
    obtain ⟨way, hway, hmatch⟩ := List.exists_of_findSome?_eq_some h
    obtain ⟨found', hfound', -⟩ := Option.map_eq_some_iff.mp hmatch
    obtain ⟨rest, found'', hrest, hfound''⟩ := ih hfound'
    rw [← Piece.append_of_mem_ways hway]
    exact ⟨rest, found'', hrest.trans (List.suffix_append way.1 way.2), hfound''⟩

/-- A match leaves the end of the text. -/
theorem suffix_of_matchAt (h : matchAt pattern text = some (groups, rest)) : rest <:+ text := by
  induction pattern generalizing text groups with
  | nil =>
    rw [matchAt] at h
    cases h
    exact List.suffix_rfl
  | cons piece pattern ih =>
    rw [matchAt] at h
    obtain ⟨way, hway, hmatch⟩ := List.exists_of_findSome?_eq_some h
    obtain ⟨⟨groups', rest'⟩, hrest, heq⟩ := Option.map_eq_some_iff.mp hmatch
    cases heq
    rw [← Piece.append_of_mem_ways hway]
    exact (ih hrest).trans (List.suffix_append way.1 way.2)

/-! ### Words, gaps and runs -/

omit [DecidableEq α] in
theorem map_keep (found : Option (List (List α) × List α)) :
    found.map (Prod.map id id) = found := by
  rw [Prod.map_id, Option.map_id, id]

variable (pattern) in
theorem matchAt_word_append (w text : List α) :
    matchAt (.word w :: pattern) (w ++ text) = matchAt pattern text := by
  rw [matchAt, Piece.ways, if_pos (List.prefix_append w text), List.drop_left]
  rw [List.findSome?_singleton]
  exact map_keep _

theorem matchAt_word_eq_none (h : ¬ w <+: text) :
    matchAt (.word w :: pattern) text = none := by
  rw [matchAt, Piece.ways, if_neg h, List.findSome?_nil]

theorem matchAt_gap_nil : matchAt (gap :: pattern) [] = matchAt pattern [] := by
  rw [matchAt]
  simp only [gap, Piece.ways, cuts, List.length_nil, Nat.le_refl, decide_true,
    List.filter_cons_of_pos, List.filter_nil, if_true, List.findSome?_singleton]
  exact map_keep _

/-- A gap takes no character if the rest of the pattern matches here. -/
theorem matchAt_gap_cons (c : α) (text : List α) :
    matchAt (gap :: pattern) (c :: text) =
      (matchAt pattern (c :: text)).or (matchAt (gap :: pattern) text) := by
  have hways : ∀ text : List α, Piece.ways gap text = cuts (fun _ => true) text := fun text => by
    simp [gap, Piece.ways]
  have hcapture : ∀ taken : List α, Prod.map (Piece.capture gap taken) id =
      (id : List (List α) × List α → List (List α) × List α) := fun _ => rfl
  simp only [matchAt, hways, hcapture, Option.map_id, cuts, if_true, List.findSome?_cons,
    List.findSome?_map, id]
  cases matchAt pattern (c :: text) <;> rfl

omit [DecidableEq α] in
/-- The longest cut comes last, and the others leave more. -/
theorem cuts_append (hblock : ∀ c ∈ block, P c = true) (hrest : ∀ c ∈ rest.head?, P c = false) :
    ∃ shorter, cuts P (block ++ rest) = shorter ++ [(block, rest)] ∧
      ∀ cut ∈ shorter, ∃ b, b <:+ block ∧ cut.2 = b ++ rest := by
  induction block with
  | nil =>
    refine ⟨[], ?_, by simp⟩
    cases rest with
    | nil => rfl
    | cons c rest => simp [cuts, hrest c rfl]
  | cons c block ih =>
    obtain ⟨hc, hblock⟩ := List.forall_mem_cons.mp hblock
    obtain ⟨shorter, hcuts, hshorter⟩ := ih hblock
    refine ⟨([], c :: (block ++ rest)) :: shorter.map fun cut => (c :: cut.1, cut.2), ?_, ?_⟩
    · rw [List.cons_append, cuts, if_pos hc, hcuts, List.map_append]
      rfl
    · intro cut hcut
      rcases List.mem_cons.mp hcut with rfl | hcut
      · exact ⟨c :: block, List.suffix_rfl, rfl⟩
      · obtain ⟨cut', hcut', rfl⟩ := List.mem_map.mp hcut
        obtain ⟨b, hb, heq⟩ := hshorter cut' hcut'
        exact ⟨b, hb.trans (List.suffix_cons c block), heq⟩

/-- A greedy run takes all that it can if giving characters back would not help. -/
theorem matchAt_run_append {least : ℕ} {captured : Bool} (hblock : ∀ c ∈ block, P c = true)
    (hleast : least ≤ block.length) (hrest : ∀ c ∈ rest.head?, P c = false)
    (hback : matchAt pattern rest = none →
      ∀ b, b <:+ block → matchAt pattern (b ++ rest) = none) :
    matchAt (.run P least false captured :: pattern) (block ++ rest) =
      (matchAt pattern rest).map
        (Prod.map ((Piece.run P least false captured).capture block) id) := by
  obtain ⟨shorter, hcuts, hshorter⟩ := cuts_append hblock hrest
  -- a greedy run tries the longest cut first, and then those that give characters back
  rw [matchAt, Piece.ways, hcuts]
  simp only [List.filter_append, Bool.false_eq_true, if_false]
  rw [List.filter_singleton, decide_eq_true hleast, cond_true, List.reverse_append,
    List.reverse_singleton, List.singleton_append, List.findSome?_cons]
  cases hmatch : matchAt pattern rest with
  | some found => rfl
  | none =>
    rw [Option.map_none, List.findSome?_eq_none_iff]
    intro cut hcut
    obtain ⟨b, hb, heq⟩ := hshorter cut (List.mem_of_mem_filter (List.mem_reverse.mp hcut))
    rw [heq, hback hmatch b hb, Option.map_none]

/-- A run that may be empty is empty where its class does not begin. -/
theorem matchAt_run_of_head (hrest : ∀ c ∈ rest.head?, P c = false) :
    matchAt (.run P 0 false false :: pattern) rest = matchAt pattern rest := by
  have hback : matchAt pattern rest = none →
      ∀ b, b <:+ [] → matchAt pattern (b ++ rest) = none := by
    intro hnone b hb
    rw [List.suffix_nil.mp hb]
    exact hnone
  have hempty : matchAt (.run P 0 false false :: pattern) ([] ++ rest) =
      (matchAt pattern rest).map (Prod.map id id) :=
    matchAt_run_append (by simp) (Nat.zero_le _) hrest hback
  rw [List.nil_append] at hempty
  rw [hempty, map_keep]

/-! ### Blocks that a search passes over -/

/-- No match begins within a block that comes before `rest`. -/
def Absent (pattern : List (Piece α)) (block rest : List α) : Prop :=
  ∀ b, b <:+ block → b ≠ [] → matchAt pattern (b ++ rest) = none

theorem absent_nil (pattern : List (Piece α)) (rest : List α) : Absent pattern [] rest :=
  fun _ hb hne => absurd (List.suffix_nil.mp hb) hne

theorem absent_cons_iff {c : α} : Absent pattern (c :: block) rest ↔
    matchAt pattern (c :: (block ++ rest)) = none ∧ Absent pattern block rest := by
  constructor
  · intro h
    exact ⟨h _ List.suffix_rfl (List.cons_ne_nil c block),
      fun b hb => h b (hb.trans (List.suffix_cons c block))⟩
  · rintro ⟨hhead, htail⟩ b hb hne
    rcases List.suffix_cons_iff.mp hb with rfl | hb
    · exact hhead
    · exact htail b hb hne

theorem absent_append_iff {block' : List α} : Absent pattern (block ++ block') rest ↔
    Absent pattern block (block' ++ rest) ∧ Absent pattern block' rest := by
  induction block with
  | nil => simp [absent_nil]
  | cons c block ih =>
    rw [List.cons_append, absent_cons_iff, absent_cons_iff, ih, List.append_assoc, and_assoc]

/-- A pattern that begins with a word is absent where its first character is. -/
theorem absent_of_not_mem {c : α} {w : List α} (h : c ∉ block) :
    Absent (.word (c :: w) :: pattern) block rest := by
  intro b hb hne
  obtain ⟨d, b, rfl⟩ := List.exists_cons_of_ne_nil hne
  refine matchAt_word_eq_none fun hbegins => h (hb.subset ?_)
  rw [(List.cons_prefix_cons.mp hbegins).1]
  exact List.mem_cons_self

theorem matchAt_gap_append (h : Absent pattern block rest) :
    matchAt (gap :: pattern) (block ++ rest) = matchAt (gap :: pattern) rest := by
  induction block with
  | nil => rfl
  | cons c block ih =>
    obtain ⟨hhead, htail⟩ := absent_cons_iff.mp h
    rw [List.cons_append, matchAt_gap_cons, hhead, Option.none_or, ih htail]

theorem matchAt_gap_of_match {found : List (List α) × List α}
    (h : matchAt pattern text = some found) :
    matchAt (gap :: pattern) text = some found := by
  cases text with
  | nil => rw [matchAt_gap_nil, h]
  | cons c text => rw [matchAt_gap_cons, h, Option.some_or]

theorem absent_of_matchAt_gap (h : matchAt (gap :: pattern) text = none) :
    Absent pattern text [] := by
  induction text with
  | nil => exact absent_nil pattern []
  | cons c text ih =>
    rw [matchAt_gap_cons, Option.or_eq_none_iff] at h
    rw [absent_cons_iff, List.append_nil]
    exact ⟨h.1, ih h.2⟩

theorem matchAt_gap_of_suffix (h : matchAt (gap :: pattern) text = none) (hrest : rest <:+ text) :
    matchAt (gap :: pattern) rest = none := by
  obtain ⟨block, rfl⟩ := hrest
  induction block with
  | nil => exact h
  | cons c block ih =>
    rw [List.cons_append, matchAt_gap_cons, Option.or_eq_none_iff] at h
    exact ih h.2

variable (pattern) in
/-- Where the end of a pattern is not to be found, the pattern is not either. -/
theorem matchAt_gap_eq_none {pattern' : List (Piece α)}
    (h : matchAt (gap :: pattern') text = none) :
    matchAt (gap :: (pattern ++ gap :: pattern')) text = none := by
  rw [Option.eq_none_iff_forall_ne_some]
  intro found hfound
  rw [← List.cons_append] at hfound
  obtain ⟨rest, found', hrest, hfound'⟩ := exists_of_matchAt_append hfound
  rw [matchAt_gap_of_suffix h hrest] at hfound'
  cases hfound'

/-! ### All matches -/

@[simp] theorem findall_nil (pattern : List (Piece α)) : findall pattern [] = [] := by
  rw [findall, findallFrom]

theorem findallFrom_append (block rest : List α) :
    findallFrom pattern block.length (block ++ rest) = findall pattern rest := by
  induction block with
  | nil => rfl
  | cons c block ih =>
    rw [List.length_cons, List.cons_append, findallFrom]
    exact ih

theorem findall_append (h : Absent pattern block rest) :
    findall pattern (block ++ rest) = findall pattern rest := by
  induction block with
  | nil => rfl
  | cons c block ih =>
    obtain ⟨hhead, htail⟩ := absent_cons_iff.mp h
    rw [List.cons_append, findall, findallFrom, hhead]
    exact ih htail

theorem findall_of_matchAt_gap (h : matchAt (gap :: pattern) text = none) :
    findall pattern text = [] := by
  have hskip := findall_append (absent_of_matchAt_gap h)
  rwa [List.append_nil, findall_nil] at hskip

/-- A pattern that begins with a word is not found where the word is not. -/
theorem findall_eq_nil_of_word (h : ¬ w <:+: text) : findall (.word w :: pattern) text = [] := by
  have habsent : Absent (.word w :: pattern) text [] := by
    intro b hb _
    rw [List.append_nil]
    exact matchAt_word_eq_none fun hbegins => h (hbegins.isInfix.trans hb.isInfix)
  have hskip := findall_append habsent
  rwa [List.append_nil, findall_nil] at hskip

/-- After a match the search goes on behind it. -/
theorem findall_of_match (h : matchAt pattern text = some (groups, rest)) (hne : rest ≠ text) :
    findall pattern text = groups :: findall pattern rest := by
  have hsuffix := suffix_of_matchAt h
  cases text with
  | nil => exact absurd (List.suffix_nil.mp hsuffix) hne
  | cons c text =>
    -- what the match has taken beyond its first character is skipped
    obtain ⟨block, rfl⟩ := (List.suffix_cons_iff.mp hsuffix).resolve_left hne
    have hskip : (block ++ rest).length - rest.length = block.length := by
      rw [List.length_append, Nat.add_sub_cancel]
    rw [findall, findallFrom, h]
    dsimp only
    rw [hskip, findallFrom_append]

end MarketplacePipeline.Backtracking
