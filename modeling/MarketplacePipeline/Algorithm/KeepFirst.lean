import Mathlib.Data.List.Dedup
import Mathlib.Data.Finset.Card
import Mathlib.Data.Finset.Dedup

/-!
# Keeping the first element of every key

`keepFirst f l` drops from `l` every element whose key `f` an earlier element already has; the
order of the others is kept.  It is the standard library's `eraseDupsBy` for the comparison of
keys.  A loop that walks `l` with a set of seen keys builds `keepFirst f l` from the left
(`keepFirst_concat`), and what it has built only grows (`keepFirst_prefix`).
-/

namespace MarketplacePipeline.KeepFirst

variable {α β : Type*} [DecidableEq β] (f : α → β)

/-- The first element of every key, in their order. -/
def keepFirst (l : List α) : List α := l.eraseDupsBy (fun a b => f a == f b)

@[simp] theorem keepFirst_nil : keepFirst f [] = [] := rfl

theorem keepFirst_cons (a : α) (l : List α) :
    keepFirst f (a :: l) = a :: keepFirst f (l.filter (fun b => f b ≠ f a)) := by
  rw [keepFirst, List.eraseDupsBy_cons, keepFirst]
  congr 2
  apply List.filter_congr
  intro b _
  simp

/-- One more element is kept exactly when its key is new. -/
theorem keepFirst_concat (l : List α) (a : α) :
    keepFirst f (l ++ [a]) =
      if f a ∈ l.map f then keepFirst f l else keepFirst f l ++ [a] := by
  induction hn : l.length using Nat.strong_induction_on generalizing l with
  | _ n ih =>
  cases l with
  | nil => simp [keepFirst_cons]
  | cons b l =>
    rw [List.cons_append, keepFirst_cons, keepFirst_cons, List.filter_append]
    by_cases hab : f a = f b
    · -- `b` already stands for the key of `a`
      have hnil : [a].filter (fun c => f c ≠ f b) = [] := by simp [hab]
      rw [hnil, List.append_nil, if_pos (by simp [hab])]
    · have hone : [a].filter (fun c => f c ≠ f b) = [a] := by simp [hab]
      -- the recursion goes on with a filtered list, hence the induction on the length
      have hlt : (l.filter (fun c => f c ≠ f b)).length < n := by
        have := List.length_filter_le (fun c => decide (f c ≠ f b)) l
        simp only [List.length_cons] at hn
        omega
      have hmem : f a ∈ (l.filter (fun c => f c ≠ f b)).map f ↔ f a ∈ (b :: l).map f := by
        simp only [List.mem_map, List.mem_filter, List.mem_cons, decide_eq_true_eq]
        constructor
        · rintro ⟨c, ⟨hc, -⟩, hca⟩
          exact ⟨c, Or.inr hc, hca⟩
        · rintro ⟨c, rfl | hc, hca⟩
          · exact absurd hca.symm hab
          · exact ⟨c, ⟨hc, fun h => hab (hca.symm.trans h)⟩, hca⟩
      rw [hone, ih _ hlt _ rfl]
      simp only [hmem]
      split <;> rfl

theorem mem_of_mem_keepFirst {l : List α} {a : α} (h : a ∈ keepFirst f l) : a ∈ l := by
  induction l using List.reverseRecOn with
  | nil => cases h
  | append_singleton l b ih =>
    rw [keepFirst_concat] at h
    rw [List.mem_append]
    split_ifs at h
    · exact Or.inl (ih h)
    · exact (List.mem_append.mp h).imp_left ih

/-- Keeping first elements loses no key. -/
theorem mem_map_keepFirst (l : List α) (x : β) : x ∈ (keepFirst f l).map f ↔ x ∈ l.map f := by
  induction l using List.reverseRecOn with
  | nil => simp
  | append_singleton l a ih =>
    rw [keepFirst_concat]
    split_ifs with h
    · rw [ih, List.map_append, List.mem_append]
      constructor
      · exact Or.inl
      · rintro (hx | hx)
        · exact hx
        · rw [List.map_singleton, List.mem_singleton] at hx
          rwa [hx]
    · simp only [List.map_append, List.mem_append, ih]

/-- The keys that are kept are distinct. -/
theorem nodup_map_keepFirst (l : List α) : ((keepFirst f l).map f).Nodup := by
  induction l using List.reverseRecOn with
  | nil => simp
  | append_singleton l a ih =>
    rw [keepFirst_concat]
    split_ifs with h
    · exact ih
    · have hnew : f a ∉ (keepFirst f l).map f := fun hx => h ((mem_map_keepFirst f l _).mp hx)
      rw [List.map_append, List.map_singleton, ← List.concat_eq_append]
      exact ih.concat hnew

/-- What was kept stays in front when more elements follow. -/
theorem keepFirst_prefix (l r : List α) : keepFirst f l <+: keepFirst f (l ++ r) := by
  induction r using List.reverseRecOn with
  | nil => simp
  | append_singleton r a ih =>
    rw [← List.append_assoc, keepFirst_concat]
    split_ifs with h
    · exact ih
    · exact ih.trans (List.prefix_append _ _)

/-- There are as many kept elements as distinct keys. -/
theorem length_keepFirst (l : List α) : (keepFirst f l).length = (l.map f).toFinset.card := by
  have hset : (l.map f).toFinset = ((keepFirst f l).map f).toFinset := by
    ext x
    rw [List.mem_toFinset, List.mem_toFinset, mem_map_keepFirst]
  rw [hset, List.toFinset_card_of_nodup (nodup_map_keepFirst f l), List.length_map]

end MarketplacePipeline.KeepFirst
