import Mathlib.Data.List.Infix

/-!
# The first occurrence of a list in a list

`findSub sub l` is the first position at which `sub` occurs in `l`, as substring searches of
programming languages define it.  `FirstAt sub u l` says that `l` starts with `u`, then `sub`, and
that `sub` does not occur any earlier; `findSub_eq_length` and `findSub_eq_none_iff` characterize
the search by it.

The lemmas about seams (`prefix_of_prefix_append_cons`, `FirstAt.of_separated`) serve searches in
texts that were put together from pieces: a pattern that does not contain the separator cannot
occur across it.
-/

namespace MarketplacePipeline.FirstOccurrence

variable {α : Type*}

/-- The first position at which `sub` occurs in a list. -/
def findSub [DecidableEq α] (sub : List α) : List α → Option Nat
  | [] => if sub = [] then some 0 else none
  | c :: cs => if sub <+: c :: cs then some 0 else (findSub sub cs).map (· + 1)

/-- `l` is `u`, then `sub`, then `rest`, and `sub` occurs at no position before the end of `u`. -/
structure FirstAt (sub u rest l : List α) : Prop where
  eq : l = u ++ sub ++ rest
  not_before : ∀ m, m < u.length → ¬ sub <+: l.drop m

theorem FirstAt.tail {sub u rest l : List α} {c : α} (h : FirstAt sub (c :: u) rest (c :: l)) :
    FirstAt sub u rest l := by
  refine ⟨by simpa using h.eq, fun m hm => ?_⟩
  simpa using h.not_before (m + 1) (by simpa using hm)

theorem FirstAt.cons {sub u rest l : List α} {c : α} (h : FirstAt sub u rest l)
    (hc : ¬ sub <+: c :: l) : FirstAt sub (c :: u) rest (c :: l) := by
  refine ⟨by simp [h.eq], fun m hm => ?_⟩
  cases m with
  | zero => exact hc
  | succ m => exact h.not_before m (by simpa using hm)

/-- A list that occurs has a first occurrence. -/
theorem exists_firstAt {sub l : List α} (h : sub <:+: l) : ∃ u rest, FirstAt sub u rest l := by
  induction l with
  | nil =>
    obtain rfl := List.infix_nil.mp h
    exact ⟨[], [], rfl, by simp⟩
  | cons c l ih =>
    by_cases hp : sub <+: c :: l
    · obtain ⟨rest, hrest⟩ := hp
      exact ⟨[], rest, by simpa using hrest.symm, by simp⟩
    · obtain ⟨u, rest, hf⟩ := ih ((List.infix_cons_iff.mp h).resolve_left hp)
      exact ⟨c :: u, rest, hf.cons hp⟩

theorem FirstAt.infix {sub u rest l : List α} (h : FirstAt sub u rest l) : sub <:+: l :=
  ⟨u, rest, h.eq.symm⟩

/-- There is only one first occurrence. -/
theorem FirstAt.unique {sub u v rest rest' l : List α} (h : FirstAt sub u rest l)
    (h' : FirstAt sub v rest' l) : u = v ∧ rest = rest' := by
  have hdrop : ∀ {w r : List α}, FirstAt sub w r l → sub <+: l.drop w.length := by
    intro w r hw
    rw [hw.eq, List.append_assoc, List.drop_left]
    exact List.prefix_append _ _
  have hlen : u.length = v.length := by
    rcases Nat.lt_trichotomy u.length v.length with hlt | heq | hgt
    · exact absurd (hdrop h) (h'.not_before _ hlt)
    · exact heq
    · exact absurd (hdrop h') (h.not_before _ hgt)
  have heq : u ++ (sub ++ rest) = v ++ (sub ++ rest') := by
    rw [← List.append_assoc, ← List.append_assoc, ← h.eq, ← h'.eq]
  obtain ⟨huv, hrest⟩ := List.append_inj heq hlen
  exact ⟨huv, List.append_cancel_left hrest⟩

section Search

variable [DecidableEq α]

/-- The search stops at the first occurrence. -/
theorem findSub_eq_length {sub u rest l : List α} (h : FirstAt sub u rest l) :
    findSub sub l = some u.length := by
  induction l generalizing u with
  | nil =>
    have hnil := h.eq
    simp only [List.append_assoc, List.nil_eq, List.append_eq_nil_iff] at hnil
    simp [findSub, hnil.1, hnil.2.1]
  | cons c l ih =>
    cases u with
    | nil =>
      have hp : sub <+: c :: l := ⟨rest, h.eq.symm⟩
      rw [findSub, if_pos hp, List.length_nil]
    | cons d u =>
      have hd : d = c := by simpa using (congrArg List.head? h.eq).symm
      subst hd
      have hp : ¬ sub <+: d :: l := h.not_before 0 (by simp)
      rw [findSub, if_neg hp, ih h.tail, Option.map_some, List.length_cons]

theorem findSub_eq_none_iff {sub l : List α} : findSub sub l = none ↔ ¬ sub <:+: l := by
  constructor
  · intro h hsub
    obtain ⟨u, rest, hf⟩ := exists_firstAt hsub
    rw [findSub_eq_length hf] at h
    cases h
  · intro h
    induction l with
    | nil =>
      rw [findSub, if_neg]
      rintro rfl
      exact h List.infix_rfl
    | cons c l ih =>
      rw [List.infix_cons_iff, not_or] at h
      rw [findSub, if_neg h.1, ih h.2, Option.map_none]

/-- Cutting at an element that was put behind a list without it gives back the list. -/
theorem takeWhile_ne_append_cons {l r : List α} {c : α} (h : c ∉ l) :
    (l ++ c :: r).takeWhile (· ≠ c) = l := by
  rw [List.takeWhile_append_of_pos]
  · simp
  · intro d hd
    exact decide_eq_true fun hdc => h (hdc ▸ hd)

theorem dropWhile_ne_append_cons {l r : List α} {c : α} (h : c ∉ l) :
    (l ++ c :: r).dropWhile (· ≠ c) = c :: r := by
  rw [List.dropWhile_append_of_pos]
  · simp
  · intro d hd
    exact decide_eq_true fun hdc => h (hdc ▸ hd)

/-- Searching a single element is cutting at it. -/
theorem findSub_singleton (c : α) (l : List α) :
    findSub [c] l = if c ∈ l then some (l.takeWhile (· ≠ c)).length else none := by
  induction l with
  | nil => simp [findSub]
  | cons d l ih =>
    by_cases hd : d = c
    · subst hd
      simp [findSub]
    · have hp : ¬ [c] <+: d :: l := by
        simpa [List.cons_prefix_cons] using fun h => hd h.symm
      have hmem : c ∈ d :: l ↔ c ∈ l := by simp [Ne.symm hd]
      rw [findSub, if_neg hp, ih]
      by_cases hc : c ∈ l
      · simp [hc, hmem, hd]
      · simp [hc, hmem]

end Search

/-! ### Occurrences and seams -/

/-- A pattern without `x` that starts `l ++ x :: r` fits into `l`. -/
theorem prefix_of_prefix_append_cons {sub l r : List α} {x : α} (hx : x ∉ sub)
    (h : sub <+: l ++ x :: r) : sub <+: l := by
  rcases List.prefix_or_prefix_of_prefix h (List.prefix_append l (x :: r)) with h' | ⟨t, ht⟩
  · exact h'
  · cases t with
    | nil => exact ⟨[], by simpa using ht.symm⟩
    | cons y t =>
      rw [← ht, List.prefix_append_right_inj, List.cons_prefix_cons] at h
      exact absurd (by rw [← ht, h.1]; simp) hx

/-- A pattern without the separator `x` that does not occur in `l` first occurs in
`l ++ x :: r` where it first occurs in `r`. -/
theorem FirstAt.of_separated {sub l u rest r : List α} {x : α} (hx : x ∉ sub)
    (hl : ¬ sub <:+: l) (h : FirstAt sub u rest r) :
    FirstAt sub (l ++ x :: u) rest (l ++ x :: r) := by
  refine ⟨by simp [h.eq], fun m hm hp => ?_⟩
  by_cases hml : m ≤ l.length
  · -- an occurrence that starts in `l` cannot reach over the separator
    rw [List.drop_append_of_le_length hml] at hp
    exact hl ((prefix_of_prefix_append_cons hx hp).isInfix.trans (List.drop_suffix m l).isInfix)
  · -- one that starts behind the separator is an occurrence in `r`
    obtain ⟨k, rfl⟩ : ∃ k, m = l.length + (k + 1) := ⟨m - l.length - 1, by omega⟩
    rw [List.drop_append, List.drop_eq_nil_of_le (by omega), List.nil_append,
      Nat.add_sub_cancel_left, List.drop_succ_cons] at hp
    refine h.not_before k ?_ hp
    simp only [List.length_append, List.length_cons] at hm
    omega

/-- A first occurrence only depends on what stands up to its end. -/
theorem FirstAt.append {sub u rest l : List α} (h : FirstAt sub u rest l) (r : List α) :
    FirstAt sub u (rest ++ r) (l ++ r) := by
  refine ⟨by simp [h.eq], fun m hm hp => h.not_before m hm ?_⟩
  -- an earlier occurrence in `l ++ r` ends before the one in `l` does, so it lies in `l`
  have hlen : sub.length ≤ (l.drop m).length := by
    rw [h.eq]
    simp only [List.length_drop, List.length_append]
    omega
  have hml : m ≤ l.length := by
    rw [h.eq]
    simp only [List.length_append]
    omega
  rw [List.drop_append_of_le_length hml] at hp
  exact List.prefix_of_prefix_length_le hp (List.prefix_append _ _) hlen

/-- A first occurrence in a prefix that reaches past it. -/
theorem FirstAt.of_append {sub u rest l r : List α} (h : FirstAt sub u (rest ++ r) (l ++ r)) :
    FirstAt sub u rest l := by
  have heq : l = u ++ sub ++ rest := by
    have := h.eq
    rw [← List.append_assoc] at this
    exact List.append_cancel_right this
  refine ⟨heq, fun m hm hp => h.not_before m hm ?_⟩
  have hml : m ≤ l.length := by
    rw [heq]
    simp only [List.length_append]
    omega
  rw [List.drop_append_of_le_length hml]
  exact hp.trans (List.prefix_append _ _)

end MarketplacePipeline.FirstOccurrence
