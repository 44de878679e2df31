import MarketplacePipeline.Crm.IdempotencyPolicy

/-!
# Reading a marker back

`extract_eq_some_iff` says what `extractIdempotencyMarker` reads: what stands between the first
occurrence of the marker prefix and the next closing bracket.  `extract_append_iff` says for which
texts a marker that was appended is read back.
-/

namespace MarketplacePipeline.IdempotencyPolicy

open FirstOccurrence

/-- If the marker prefix occurs in the text, its first occurrence is followed by the key and the
closing bracket. -/
def MarkerReadable (key text : Str) : Prop :=
  ∀ u rest, FirstAt markerPrefix u rest text → key ++ markerSuffix <+: rest

/-- A text without the prefix has no marker. -/
theorem extract_eq_none_of_no_marker {text : Str} (h : ¬ markerPrefix <:+: text) :
    extractIdempotencyMarker text = none := by
  rw [extractIdempotencyMarker, Str.find_zero, findSub_eq_none_iff.mpr h]

/-- What is read is what stands between the first prefix and the next bracket. -/
theorem extract_of_firstAt {u rest text : Str} (h : FirstAt markerPrefix u rest text) :
    extractIdempotencyMarker text =
      if ']' ∈ rest then some (rest.takeWhile (· ≠ ']')) else none := by
  have hsuffix : Str.find markerSuffix text u.length =
      if ']' ∈ rest then
        some (u.length + (markerPrefix.length + (rest.takeWhile (· ≠ ']')).length))
      else none := by
    rw [Str.find, show markerSuffix = [']'] from rfl, findSub_singleton, h.eq, List.append_assoc,
      List.drop_left]
    -- the decoder looks for the bracket from the start of the prefix, which has none
    have hmem : ']' ∈ markerPrefix ++ rest ↔ ']' ∈ rest := by
      rw [List.mem_append, or_iff_right (by decide)]
    have htake : (markerPrefix ++ rest).takeWhile (· ≠ ']') =
        markerPrefix ++ rest.takeWhile (· ≠ ']') :=
      List.takeWhile_append_of_pos (List.all_eq_true.mp (by decide))
    rw [htake, List.length_append]
    by_cases hin : ']' ∈ rest
    · rw [if_pos (hmem.mpr hin), if_pos hin]
      rfl
    · rw [if_neg (fun hm => hin (hmem.mp hm)), if_neg hin]
      rfl
  rw [extractIdempotencyMarker, Str.find_zero, findSub_eq_length h]
  simp only [hsuffix]
  by_cases hin : ']' ∈ rest
  · rw [if_pos hin, if_pos hin]
    refine congrArg some ?_
    have hlen : u.length + markerPrefix.length = (u ++ markerPrefix).length :=
      List.length_append.symm
    show (text.take (u.length + (markerPrefix.length + (rest.takeWhile (· ≠ ']')).length))).drop
      (u.length + markerPrefix.length) = _
    rw [← Nat.add_assoc, hlen, h.eq, List.take_length_add_append, List.drop_left]
    exact List.prefix_iff_eq_take.mp (List.takeWhile_prefix _) |>.symm
  · rw [if_neg hin, if_neg hin]

/-- A key is read exactly where it follows the first prefix, closed by a bracket. -/
theorem extract_eq_some_iff {key text : Str} (hkey : ']' ∉ key) :
    extractIdempotencyMarker text = some key ↔
      ∃ u rest, FirstAt markerPrefix u rest text ∧ key ++ markerSuffix <+: rest := by
  by_cases hinfix : markerPrefix <:+: text
  · obtain ⟨u, rest, hfirst⟩ := exists_firstAt hinfix
    rw [extract_of_firstAt hfirst]
    constructor
    · intro h
      refine ⟨u, rest, hfirst, ?_⟩
      split_ifs at h with hin
      obtain rfl := Option.some.inj h
      obtain ⟨front, tail, rfl, hfront⟩ := List.eq_append_cons_of_mem hin
      rw [takeWhile_ne_append_cons hfront]
      exact ⟨tail, by simp [markerSuffix]⟩
    · rintro ⟨u', rest', hfirst', tail, rfl⟩
      obtain ⟨-, rfl⟩ := hfirst.unique hfirst'
      have hrest : key ++ markerSuffix ++ tail = key ++ ']' :: tail := by simp [markerSuffix]
      rw [hrest, if_pos (by simp), takeWhile_ne_append_cons hkey]
  · rw [extract_eq_none_of_no_marker hinfix]
    simp only [reduceCtorEq, false_iff]
    rintro ⟨u, rest, hfirst, -⟩
    exact hinfix hfirst.infix

/-! ### Markers that were appended -/

theorem markerPrefix_eq : markerPrefix = '[' :: "pipeline:idempotency:".toList := by decide

theorem markerPrefix_prefix_marker (key : Str) : markerPrefix <+: marker key :=
  ⟨key ++ markerSuffix, by rw [marker, List.append_assoc]⟩

/-- A key that follows an occurrence of the prefix is a marker in the text. -/
theorem marker_infix_of_firstAt {key u rest text : Str} (h : FirstAt markerPrefix u rest text)
    (hkey : key ++ markerSuffix <+: rest) : marker key <:+: text := by
  obtain ⟨tail, rfl⟩ := hkey
  exact ⟨u, tail, by rw [h.eq, marker]; simp⟩

/-- The prefix stands where it stood when trailing whitespace is removed. -/
theorem firstAt_rstrip {u rest text : Str} (h : FirstAt markerPrefix u rest text) :
    FirstAt markerPrefix u (Str.rstrip rest) (Str.rstrip text) := by
  have hlast : ∀ hne, Str.isSpace ((u ++ markerPrefix).getLast hne) = false := by
    intro hne
    rw [List.getLast_append_of_ne_nil hne (by decide)]
    decide
  have hstrip : Str.rstrip text = u ++ markerPrefix ++ Str.rstrip rest := by
    rw [h.eq, Str.rstrip_append (by simp [markerPrefix_eq]) hlast]
  obtain ⟨spaces, hspaces⟩ := Str.rstrip_prefix rest
  refine FirstAt.of_append (r := spaces) ?_
  rw [hspaces, hstrip, List.append_assoc, hspaces, ← h.eq]
  exact h

/-- A prefix in the text that its own key does not follow hides the appended marker. -/
theorem not_prefix_hidden {key rest : Str} (hkey : ']' ∉ key) (h : ¬ key ++ markerSuffix <+: rest) :
    ¬ key ++ markerSuffix <+: rest ++ ("\n\n".toList ++ marker key) := by
  intro hp
  rcases List.prefix_or_prefix_of_prefix hp (List.prefix_append rest _) with hshort | ⟨z, hz⟩
  · exact h hshort
  -- otherwise the key and its bracket reach into what was appended, by a piece `z` of it
  rw [← hz, List.prefix_append_right_inj, marker, ← List.append_assoc,
    show markerSuffix = [']'] from rfl, List.prefix_concat_iff] at hp
  rcases hp with rfl | hfront
  · -- all of it: then the key would be longer than itself
    have hlength := congrArg List.length hz
    have hprefix : markerPrefix.length = 22 := by decide
    have hsuffix : markerSuffix.length = 1 := rfl
    simp only [List.length_append, List.length_singleton, hprefix, hsuffix] at hlength
    omega
  · -- `z` ends with the bracket of the suffix, or is empty
    cases z using List.reverseRecOn with
    | nil => exact h ⟨[], by rw [← hz]; simp⟩
    | append_singleton z c =>
      rw [← List.append_assoc, show markerSuffix = [']'] from rfl] at hz
      obtain rfl : c = ']' := by simpa using (List.append_inj' hz rfl).2
      have hmem : ']' ∈ "\n\n".toList ++ (markerPrefix ++ key) := hfront.subset (by simp)
      simp only [List.mem_append, hkey, or_false] at hmem
      revert hmem
      decide

/-- **When an appended marker is read back**: if and only if the text has no prefix of its own, or
its first one is followed by the key. -/
theorem extract_append_iff {key text : Str} (hkey : ']' ∉ key) :
    extractIdempotencyMarker (appendIdempotencyMarker text key) = some key ↔
      MarkerReadable key text := by
  rw [extract_eq_some_iff hkey, appendIdempotencyMarker]
  by_cases hmarker : marker key <:+: text
  · -- the text has the marker of this key already, and nothing is appended
    rw [if_pos hmarker]
    obtain ⟨u, rest, hfirst⟩ :=
      exists_firstAt ((markerPrefix_prefix_marker key).isInfix.trans hmarker)
    constructor
    · rintro ⟨u', rest', hfirst', hread⟩ u'' rest'' hfirst''
      obtain ⟨-, rfl⟩ := hfirst'.unique hfirst''
      exact hread
    · exact fun hread => ⟨u, rest, hfirst, hread u rest hfirst⟩
  rw [if_neg hmarker]
  by_cases hinfix : markerPrefix <:+: text
  · -- another prefix comes first, and the decoder stops there
    obtain ⟨u, rest, hfirst⟩ := exists_firstAt hinfix
    have hnot : ¬ key ++ markerSuffix <+: rest := fun h =>
      hmarker (marker_infix_of_firstAt hfirst h)
    refine iff_of_false ?_ fun hread => hnot (hread u rest hfirst)
    rintro ⟨u', rest', hfirst', hread⟩
    have happend := (firstAt_rstrip hfirst).append ("\n\n".toList ++ marker key)
    rw [← List.append_assoc, ← List.append_assoc] at happend
    obtain ⟨-, rfl⟩ := hfirst'.unique happend
    rw [List.append_assoc] at hread
    exact not_prefix_hidden hkey (fun h => hnot (h.trans (Str.rstrip_prefix rest))) hread
  · -- the line breaks keep the text apart from the marker, which is the first one
    refine iff_of_true ?_ fun u rest hfirst => absurd hfirst.infix hinfix
    have hmark : FirstAt markerPrefix [] (key ++ markerSuffix) (marker key) :=
      ⟨by simp [marker], by simp⟩
    have hline : FirstAt markerPrefix ['\n'] (key ++ markerSuffix) ('\n' :: marker key) :=
      hmark.cons (by simp [markerPrefix_eq, List.cons_prefix_cons])
    have hstripped : ¬ markerPrefix <:+: Str.rstrip text := fun h =>
      hinfix (h.trans (Str.rstrip_prefix text).isInfix)
    have hall := FirstAt.of_separated (x := '\n') (by decide) hstripped hline
    have heq : Str.rstrip text ++ "\n\n".toList ++ marker key =
        Str.rstrip text ++ '\n' :: '\n' :: marker key := by
      rw [List.append_assoc]
      rfl
    exact ⟨_, _, heq ▸ hall, List.prefix_refl _⟩

/-! ### The round trip -/

theorem markerReadable_iff {key text : Str} : MarkerReadable key text ↔
    ¬ markerPrefix <:+: text ∨
      ∃ u rest, FirstAt markerPrefix u rest text ∧ key ++ markerSuffix <+: rest := by
  constructor
  · intro h
    by_cases hinfix : markerPrefix <:+: text
    · obtain ⟨u, rest, hfirst⟩ := exists_firstAt hinfix
      exact Or.inr ⟨u, rest, hfirst, h u rest hfirst⟩
    · exact Or.inl hinfix
  · rintro (hnone | ⟨u, rest, hfirst, hread⟩) u' rest' hfirst'
    · exact absurd hfirst'.infix hnone
    · obtain ⟨-, rfl⟩ := hfirst.unique hfirst'
      exact hread

/-- The marker is in the text after it was appended. -/
theorem marker_infix_append (text key : Str) :
    marker key <:+: appendIdempotencyMarker text key := by
  unfold appendIdempotencyMarker
  split_ifs with h
  · exact h
  · exact (List.suffix_append _ _).isInfix

/-- A marker is appended once. -/
theorem append_append (text key : Str) :
    appendIdempotencyMarker (appendIdempotencyMarker text key) key =
      appendIdempotencyMarker text key := by
  have h := marker_infix_append text key
  rw [appendIdempotencyMarker, if_pos h]

/-- **The round trip of a marker**: an appended key is read back exactly if the text had no prefix,
or its first one was followed by the key; and to append it again changes nothing. -/
theorem marker_roundTrip {key : Str} (hkey : ']' ∉ key) (text : Str) :
    (extractIdempotencyMarker (appendIdempotencyMarker text key) = some key ↔
      ¬ markerPrefix <:+: text ∨
        ∃ u rest, FirstAt markerPrefix u rest text ∧ key ++ markerSuffix <+: rest) ∧
    appendIdempotencyMarker (appendIdempotencyMarker text key) key =
      appendIdempotencyMarker text key :=
  ⟨(extract_append_iff hkey).trans markerReadable_iff, append_append text key⟩

/-- A text without a marker. -/
theorem marker_roundTrip_plain :
    (extractIdempotencyMarker (appendIdempotencyMarker "call".toList "ab12".toList) =
        some "ab12".toList ↔
      ¬ markerPrefix <:+: "call".toList ∨
        ∃ u rest, FirstAt markerPrefix u rest "call".toList ∧
          "ab12".toList ++ markerSuffix <+: rest) ∧
    appendIdempotencyMarker (appendIdempotencyMarker "call".toList "ab12".toList) "ab12".toList =
      appendIdempotencyMarker "call".toList "ab12".toList :=
  marker_roundTrip (by decide) "call".toList

end MarketplacePipeline.IdempotencyPolicy
