import Mathlib.Data.List.Sort
import Mathlib.Data.List.TakeWhile
import Mathlib.Order.Basic

/-!
# Prefixes of a list in descending order

`Listing key limit rows listed` says that `listed` may be the first rows in descending order of a
key, where rows with the same key may come in any order.  `listing_of_listing_iff` says when what is
listed by one key may also be listed by another one that has all its ties: if and only if no row
that may be listed is ahead of a row that has a greater other key.
-/

namespace MarketplacePipeline.OrderedPrefix

variable {α β κ κ' : Type*} [LinearOrder κ] [LinearOrder κ'] {key : α → κ} {key' : β → κ'}
  {f : α → β} {n : ℕ} {rows listed : List α} {a b : α}

/-- The first `n` of some rows, or all of them. -/
def upTo : Option ℕ → List α → List α
  | some n, rows => rows.take n
  | none, rows => rows

@[simp] theorem upTo_some (n : ℕ) (rows : List α) : upTo (some n) rows = rows.take n := rfl

/-- The rows that may come first in descending order of `key`. -/
def Listing (key : α → κ) (limit : Option ℕ) (rows listed : List α) : Prop :=
  ∃ sorted : List α, sorted.Perm rows ∧ sorted.Pairwise (fun a b => key b ≤ key a) ∧
    listed = upTo limit sorted

/-- A row may be among the first `n`. -/
def MayBeListed (key : α → κ) (n : ℕ) (rows : List α) (a : α) : Prop :=
  a ∈ rows ∧ rows.countP (fun b => key a < key b) < n

/-- A row that may be among the first `n` is not ahead of one with a greater other key. -/
def OrdersAgree (key : α → κ) (key' : α → κ') (n : ℕ) (rows : List α) : Prop :=
  ∀ a, MayBeListed key n rows a → ∀ b ∈ rows, key b < key a → key' b ≤ key' a

/-! ### Sorted rows -/

theorem pairwise_sort (key : α → κ) (rows : List α) :
    (rows.insertionSort fun a b => key b ≤ key a).Pairwise fun a b => key b ≤ key a := by
  have htotal : Std.Total (fun a b : α => key b ≤ key a) := ⟨fun a b => le_total (key b) (key a)⟩
  have htrans : IsTrans α (fun a b : α => key b ≤ key a) := ⟨fun a b c hab hbc => hbc.trans hab⟩
  exact List.pairwise_insertionSort _ rows

theorem exists_listing (key : α → κ) (limit : Option ℕ) (rows : List α) :
    ∃ listed, Listing key limit rows listed :=
  ⟨_, _, List.perm_insertionSort _ rows, pairwise_sort key rows, rfl⟩

theorem Listing.subset (h : Listing key (some n) rows listed) : listed ⊆ rows := by
  obtain ⟨sorted, hperm, -, rfl⟩ := h
  exact fun a ha => hperm.subset (List.mem_of_mem_take ha)

/-- What is listed comes first, in descending order, and the rest of the rows comes behind it. -/
theorem Listing.exists_rest (h : Listing key (some n) rows listed) :
    listed.length = min n rows.length ∧ ∃ rest, (listed ++ rest).Perm rows ∧
      (listed ++ rest).Pairwise fun a b => key b ≤ key a := by
  obtain ⟨sorted, hperm, hsorted, rfl⟩ := h
  rw [upTo_some]
  refine ⟨?_, sorted.drop n, ?_⟩
  · rw [List.length_take, hperm.length_eq]
  · rw [List.take_append_drop]
    exact ⟨hperm, hsorted⟩

theorem upTo_map (limit : Option ℕ) (rows : List α) :
    upTo limit (rows.map f) = (upTo limit rows).map f := by
  cases limit with
  | none => rfl
  | some n => exact List.map_take.symm

/-- The listings of rows that are given by others. -/
theorem listing_map_iff {limit : Option ℕ} (g : β → α) (hleft : ∀ a ∈ rows, g (f a) = a)
    {listed : List β} : Listing key' limit (rows.map f) listed ↔
      ∃ listed', Listing (key' ∘ f) limit rows listed' ∧ listed = listed'.map f := by
  constructor
  · rintro ⟨sorted, hperm, hsorted, rfl⟩
    have hright : (sorted.map g).map f = sorted := by
      rw [List.map_map]
      refine (List.map_congr_left fun b hb => ?_).trans (List.map_id sorted)
      obtain ⟨a, ha, rfl⟩ := List.mem_map.mp (hperm.subset hb)
      rw [Function.comp_apply, hleft a ha, id]
    have hback : (rows.map f).map g = rows := by
      rw [List.map_map]
      exact (List.map_congr_left fun a ha => hleft a ha).trans (List.map_id rows)
    refine ⟨upTo limit (sorted.map g), ⟨sorted.map g, ?_, ?_, rfl⟩, ?_⟩
    · have hmapped := hperm.map g
      rwa [hback] at hmapped
    · rw [← hright, List.pairwise_map] at hsorted
      exact hsorted
    · rw [← upTo_map, hright]
  · rintro ⟨listed', ⟨sorted, hperm, hsorted, rfl⟩, rfl⟩
    refine ⟨sorted.map f, hperm.map f, ?_, (upTo_map limit sorted).symm⟩
    rw [List.pairwise_map]
    exact hsorted

/-- What is listed may be listed: the rows with greater keys come before it. -/
theorem Listing.mayBeListed (h : Listing key (some n) rows listed) (ha : a ∈ listed) :
    MayBeListed key n rows a := by
  refine ⟨h.subset ha, ?_⟩
  obtain ⟨sorted, hperm, hsorted, rfl⟩ := h
  obtain ⟨pre, post, htake⟩ := List.append_of_mem ha
  rw [upTo_some] at htake
  have hlength : pre.length < n := by
    have hle : (sorted.take n).length ≤ n := List.length_take_le n sorted
    rw [htake, List.length_append, List.length_cons] at hle
    omega
  -- nothing behind `a` has a greater key, and before `a` there is room for fewer than `n`
  have hsplit : sorted = pre ++ a :: (post ++ sorted.drop n) := by
    rw [← List.cons_append, ← List.append_assoc, ← htake, List.take_append_drop]
  have hbehind : ∀ b ∈ a :: (post ++ sorted.drop n), key b ≤ key a := by
    rw [hsplit] at hsorted
    obtain ⟨-, hrest, -⟩ := List.pairwise_append.mp hsorted
    intro b hb
    rcases List.mem_cons.mp hb with rfl | hb
    · exact le_rfl
    · exact List.rel_of_pairwise_cons hrest hb
  have hnone : (a :: (post ++ sorted.drop n)).countP (fun b => key a < key b) = 0 := by
    rw [List.countP_eq_zero]
    intro b hb
    simpa using hbehind b hb
  calc rows.countP (fun b => key a < key b) = sorted.countP fun b => key a < key b :=
        (hperm.countP_eq _).symm
    _ = pre.countP fun b => key a < key b := by
        rw [hsplit, List.countP_append, hnone, Nat.add_zero]
    _ ≤ pre.length := List.countP_le_length
    _ < n := hlength

/-- A row that may be listed can come first among those with the same key. -/
theorem MayBeListed.exists_sorted (h : MayBeListed key n rows a) :
    ∃ pre post, (pre ++ a :: post).Perm rows ∧
      (pre ++ a :: post).Pairwise (fun a b => key b ≤ key a) ∧ (∀ b ∈ pre, key a < key b) ∧
      pre.length < n := by
  obtain ⟨ha, hcount⟩ := h
  obtain ⟨before, after, rfl⟩ := List.append_of_mem ha
  have hsort := List.insertionSort_cons_eq_take_drop (fun a b : α => key b ≤ key a) a
    (before ++ after)
  have hperm := List.perm_insertionSort (fun a b : α => key b ≤ key a) (a :: (before ++ after))
  have hsorted := pairwise_sort key (a :: (before ++ after))
  rw [hsort] at hperm hsorted
  have hall : ∀ b ∈ ((before ++ after).insertionSort fun a b => key b ≤ key a).takeWhile
      (fun b => ¬ key b ≤ key a), key a < key b := by
    intro b hb
    simpa using List.mem_takeWhile_imp hb
  refine ⟨_, _, hperm.trans List.perm_middle.symm, hsorted, hall, ?_⟩
  rw [← (hperm.trans List.perm_middle.symm).countP_eq, List.countP_append] at hcount
  have hlength := List.countP_eq_length.mpr fun b hb => decide_eq_true (hall b hb)
  omega

/-! ### Two keys -/

/-- Rows in the order of one key are in the order of another as far as they may be listed. -/
theorem Listing.of_ordersAgree (h : Listing key (some n) rows listed)
    (hkey : ∀ a ∈ rows, ∀ b ∈ rows, key a = key b → key' (f a) = key' (f b))
    (hagree : OrdersAgree key (key' ∘ f) n rows) :
    Listing key' (some n) (rows.map f) (listed.map f) := by
  have hmay := fun a (ha : a ∈ listed) => h.mayBeListed ha
  obtain ⟨sorted, hperm, hsorted, rfl⟩ := h
  rw [upTo_some] at hmay ⊢
  have hle : ∀ a ∈ sorted.take n, ∀ b ∈ sorted, key b ≤ key a → key' (f b) ≤ key' (f a) := by
    intro a ha b hb hba
    rcases hba.lt_or_eq with hlt | heq
    · exact hagree a (hmay a ha) b (hperm.subset hb) hlt
    · exact (hkey b (hperm.subset hb) a (hmay a ha).1 heq).le
  -- the listed rows stay first, the others are sorted anew behind them
  have hrest := List.perm_insertionSort (fun a b => key' b ≤ key' a) ((sorted.drop n).map f)
  rw [← List.take_append_drop n sorted] at hsorted
  obtain ⟨hfirst, -, hcross⟩ := List.pairwise_append.mp hsorted
  refine ⟨(sorted.take n).map f ++
    ((sorted.drop n).map f).insertionSort fun a b => key' b ≤ key' a, ?_, ?_, ?_⟩
  · refine (hrest.append_left _).trans ?_
    rw [← List.map_append, List.take_append_drop]
    exact hperm.map f
  · refine List.pairwise_append.mpr ⟨?_, pairwise_sort key' _, ?_⟩
    · rw [List.pairwise_map]
      exact hfirst.imp_of_mem fun ha hb hba => hle _ ha _ (List.mem_of_mem_take hb) hba
    · intro x hx y hy
      obtain ⟨a, ha, rfl⟩ := List.mem_map.mp hx
      obtain ⟨b, hb, rfl⟩ := List.mem_map.mp (hrest.subset hy)
      exact hle a ha b (List.mem_of_mem_drop hb) (hcross a ha b hb)
  · rw [upTo_some]
    rcases le_total n sorted.length with hlong | hshort
    · exact (List.take_left' (by simp [hlong])).symm
    · rw [List.drop_eq_nil_of_le hshort, List.take_of_length_le hshort]
      rw [List.map_nil, List.insertionSort_nil, List.append_nil, List.take_of_length_le]
      rw [List.length_map]
      exact hshort

/-- And only then. -/
theorem ordersAgree_of_listing (hinj : ∀ a ∈ rows, ∀ b ∈ rows, f a = f b → a = b)
    (h : ∀ listed, Listing key (some n) rows listed →
      Listing key' (some n) (rows.map f) (listed.map f)) :
    OrdersAgree key (key' ∘ f) n rows := by
  intro a ha b hb hlt
  by_contra hnewer
  -- list `a` as early as it can be: then `b` is not listed before it, and must not be behind it
  obtain ⟨pre, post, hperm, hsorted, hpre, hlength⟩ := ha.exists_sorted
  have htake : (pre ++ a :: post).take n = pre ++ a :: post.take (n - pre.length - 1) := by
    rw [List.take_append, List.take_of_length_le hlength.le,
      List.take_cons (by omega : 0 < n - pre.length)]
  obtain ⟨sorted', hperm', hsorted', hlisted⟩ := h _ ⟨_, hperm, hsorted, rfl⟩
  rw [upTo_some, upTo_some, htake, List.map_append, List.map_cons] at hlisted
  have hsplit : sorted' = pre.map f ++ f a :: ((post.take (n - pre.length - 1)).map f ++
      sorted'.drop n) := by
    rw [← List.cons_append, ← List.append_assoc, hlisted, List.take_append_drop]
  have hmem : f b ∈ sorted' := hperm'.symm.subset (List.mem_map_of_mem hb)
  rw [hsplit] at hmem hsorted'
  rcases List.mem_append.mp hmem with hmem | hmem
  · obtain ⟨c, hc, heq⟩ := List.mem_map.mp hmem
    have hrows := hperm.subset (List.mem_append_left (a :: post) hc)
    rw [hinj c hrows b hb heq] at hc
    exact absurd (hpre b hc) hlt.not_gt
  · obtain ⟨-, hrest, -⟩ := List.pairwise_append.mp hsorted'
    rcases List.mem_cons.mp hmem with heq | hmem
    · exact hnewer (congrArg key' heq).le
    · exact hnewer (List.rel_of_pairwise_cons hrest hmem)

variable (n) in
/-- **When the rows listed by one key may be listed by another.** -/
theorem listing_of_listing_iff
    (hkey : ∀ a ∈ rows, ∀ b ∈ rows, key a = key b → key' (f a) = key' (f b))
    (hinj : ∀ a ∈ rows, ∀ b ∈ rows, f a = f b → a = b) :
    (∀ listed, Listing key (some n) rows listed →
        Listing key' (some n) (rows.map f) (listed.map f)) ↔
      OrdersAgree key (key' ∘ f) n rows :=
  ⟨ordersAgree_of_listing hinj, fun hagree _ h => h.of_ordersAgree hkey hagree⟩

variable (key n rows) in
/-- What holds of every row that is listed holds of every row that may be. -/
theorem forall_listing_iff (P : α → Prop) :
    (∀ listed, Listing key (some n) rows listed → ∀ a ∈ listed, P a) ↔
      ∀ a, MayBeListed key n rows a → P a := by
  constructor
  · intro h a ha
    obtain ⟨pre, post, hperm, hsorted, -, hlength⟩ := ha.exists_sorted
    refine h _ ⟨_, hperm, hsorted, rfl⟩ a ?_
    rw [upTo_some, List.take_append, List.take_cons (by omega : 0 < n - pre.length)]
    exact List.mem_append_right _ List.mem_cons_self
  · exact fun h listed hlisted a ha => h a (hlisted.mayBeListed ha)

end MarketplacePipeline.OrderedPrefix
