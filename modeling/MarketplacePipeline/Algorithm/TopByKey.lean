import Mathlib.Data.List.Sort
import Mathlib.Order.Basic

/-!
# The first elements by a key

`topBy key n l` are the first `n` elements of `l` when it is sorted by a key, and `word` writes an
element down.  A list determines the words of its first elements up to the order of elements with
the same key: `TiesAgree` says for which lists that order does not matter, and
`flatMap_topBy_eq_iff` that it is the exact condition.
-/

namespace MarketplacePipeline.TopByKey

variable {α κ β : Type*} [LinearOrder κ] {key : α → κ} {word : α → List β} {n : ℕ} {l s t : List α}
  {a : α}

/-- The first `n` elements by `key`; elements with the same key stay in their order. -/
def topBy (key : α → κ) (n : ℕ) (l : List α) : List α :=
  (l.insertionSort fun a b => key a ≤ key b).take n

theorem mem_of_mem_topBy (h : a ∈ topBy key n l) : a ∈ l :=
  (List.mem_insertionSort _).mp (List.mem_of_mem_take h)

theorem topBy_eq_nil_iff (hn : n ≠ 0) : topBy key n l = [] ↔ l = [] := by
  unfold topBy
  rw [List.take_eq_nil_iff, ← List.length_eq_zero_iff, List.length_insertionSort,
    List.length_eq_zero_iff, or_iff_right hn]

/-- Any two elements with the same key can change places: their words commute if both are always
among the first `n`, and are the same if one of them may be cut off. -/
def TiesAgree (key : α → κ) (word : α → List β) (n : ℕ) (l : List α) : Prop :=
  ∀ p ∈ l, ∀ q ∈ l, key p = key q → l.countP (fun a => key a < key p) < n →
    if l.countP (fun a => key a ≤ key p) ≤ n then word p ++ word q = word q ++ word p
    else word p = word q

instance [DecidableEq β] (l : List α) : Decidable (TiesAgree key word n l) :=
  inferInstanceAs (Decidable (∀ p ∈ l, ∀ q ∈ l, key p = key q →
    l.countP (fun a => key a < key p) < n →
    if l.countP (fun a => key a ≤ key p) ≤ n then word p ++ word q = word q ++ word p
    else word p = word q))

theorem TiesAgree.perm (h : TiesAgree key word n l) (hp : l.Perm s) :
    TiesAgree key word n s := by
  intro p hpm q hqm hkey
  rw [← hp.countP_eq, ← hp.countP_eq]
  exact h p (hp.mem_iff.mpr hpm) q (hp.mem_iff.mpr hqm) hkey

/-! ### Ties that agree -/

/-- What `TiesAgree` says without the first element. -/
theorem TiesAgree.tail (h : TiesAgree key word (n + 1) (a :: t)) (ha : ∀ b ∈ t, key a ≤ key b) :
    TiesAgree key word n t := by
  intro p hp q hq hkey hlt
  have hle : key a ≤ key p := ha p hp
  have hcount : (a :: t).countP (fun b => key b ≤ key p) =
      t.countP (fun b => key b ≤ key p) + 1 := by
    rw [List.countP_cons, if_pos (by simpa using hle)]
  have hcountlt : (a :: t).countP (fun b => key b < key p) < n + 1 := by
    rw [List.countP_cons]
    split_ifs <;> omega
  have hties := h p (List.mem_cons_of_mem a hp) q (List.mem_cons_of_mem a hq) hkey hcountlt
  rw [hcount] at hties
  simpa using hties

theorem flatMap_comm {u : List α} {w : List β} (h : ∀ x ∈ u, word x ++ w = w ++ word x) :
    u.flatMap word ++ w = w ++ u.flatMap word := by
  induction u with
  | nil => simp
  | cons x u ih =>
    have hrest := ih fun y hy => h y (List.mem_cons_of_mem x hy)
    have hx := h x List.mem_cons_self
    rw [List.flatMap_cons, List.append_assoc, hrest, ← List.append_assoc, hx, List.append_assoc]

theorem flatMap_take_succ {u : List α} {w : List β} (h : ∀ x ∈ u, word x = w)
    (hn : n < u.length) :
    (u.take (n + 1)).flatMap word = w ++ (u.take n).flatMap word := by
  induction u generalizing n with
  | nil => cases hn
  | cons x u ih =>
    have hx : word x = w := h x List.mem_cons_self
    cases n with
    | zero => simp [hx]
    | succ n =>
      have hrest := ih (fun y hy => h y (List.mem_cons_of_mem x hy)) (Nat.lt_of_succ_lt_succ hn)
      rw [List.take_succ_cons, List.take_succ_cons, List.flatMap_cons, List.flatMap_cons, hrest, hx]

/-- The first element of a sorted list may change places with those before it in another sorted
order. -/
theorem flatMap_take_moveFront {u v : List α}
    (h : TiesAgree key word (n + 1) (a :: (u ++ v))) (hu : ∀ x ∈ u, key x = key a)
    (ha : ∀ b ∈ u ++ v, key a ≤ key b) :
    ((u ++ a :: v).take (n + 1)).flatMap word = word a ++ ((u ++ v).take n).flatMap word := by
  have hmem : ∀ x ∈ u, x ∈ a :: (u ++ v) := fun x hx => by simp [hx]
  have hzero : (a :: (u ++ v)).countP (fun b => key b < key a) < n + 1 := by
    rw [List.countP_eq_zero.mpr]
    · exact Nat.succ_pos n
    · intro b hb
      rcases List.mem_cons.mp hb with rfl | hb
      · simp
      · simpa using ha b hb
  by_cases hlen : u.length ≤ n
  · -- all of `u` is among the first
    have hcomm : ∀ x ∈ u, word x ++ word a = word a ++ word x := by
      intro x hx
      have hties := h a List.mem_cons_self x (hmem x hx) (hu x hx).symm hzero
      split_ifs at hties
      · exact hties.symm
      · rw [hties]
    have htake : (u ++ a :: v).take (n + 1) = u ++ a :: v.take (n - u.length) := by
      rw [List.take_append, List.take_of_length_le (by omega),
        show n + 1 - u.length = (n - u.length) + 1 by omega, List.take_succ_cons]
    rw [htake, List.take_append, List.take_of_length_le hlen, List.flatMap_append,
      List.flatMap_append, List.flatMap_cons, ← List.append_assoc, flatMap_comm hcomm,
      List.append_assoc]
  · -- the cut goes through `u`
    have hsame : ∀ x ∈ u, word x = word a := by
      intro x hx
      have hties := h a List.mem_cons_self x (hmem x hx) (hu x hx).symm hzero
      rw [if_neg] at hties
      · exact hties.symm
      · have hcount : u.length ≤ u.countP (fun b => key b ≤ key a) := by
          rw [List.countP_eq_length.mpr]
          intro y hy
          simp [hu y hy]
        rw [List.countP_cons, List.countP_append, if_pos (by simp)]
        omega
    rw [List.take_append_of_le_length (by omega), List.take_append_of_le_length (by omega)]
    exact flatMap_take_succ hsame (by omega)

/-- Two sorted orders of a list whose ties agree begin with the same words. -/
theorem flatMap_take_eq_of_perm (hs : s.Pairwise fun a b => key a ≤ key b)
    (ht : t.Pairwise fun a b => key a ≤ key b) (hp : s.Perm t) (h : TiesAgree key word n s) :
    (s.take n).flatMap word = (t.take n).flatMap word := by
  induction s generalizing t n with
  | nil => rw [List.nil_perm.mp hp]
  | cons a s ih =>
    cases n with
    | zero => simp
    | succ n =>
      obtain ⟨u, v, rfl⟩ := List.append_of_mem (hp.mem_iff.mp List.mem_cons_self)
      have hrest : s.Perm (u ++ v) := (List.perm_cons a).mp (hp.trans List.perm_middle)
      obtain ⟨hmin, hs⟩ := List.pairwise_cons.mp hs
      have ha : ∀ b ∈ u ++ v, key a ≤ key b := fun b hb => hmin b (hrest.mem_iff.mpr hb)
      have hu : ∀ x ∈ u, key x = key a := by
        intro x hx
        have hle := (List.pairwise_append.mp ht).2.2 x hx a List.mem_cons_self
        exact le_antisymm hle (ha x (List.mem_append_left v hx))
      have huv : (u ++ v).Pairwise fun a b => key a ≤ key b :=
        ht.sublist (List.Sublist.append_left (List.sublist_cons_self a v) u)
      rw [flatMap_take_moveFront (h.perm (hrest.cons a)) hu ha, List.take_succ_cons,
        List.flatMap_cons, ih hs huv hrest (h.tail hmin)]

/-! ### What is selected -/

instance total_key : Std.Total fun a b : α => key a ≤ key b := ⟨fun _ _ => le_total _ _⟩

instance isTrans_key : IsTrans α fun a b : α => key a ≤ key b := ⟨fun _ _ _ => le_trans⟩

theorem length_topBy (key : α → κ) (n : ℕ) (l : List α) :
    (topBy key n l).length = min n l.length := by
  rw [topBy, List.length_take, List.length_insertionSort]

theorem pairwise_topBy (key : α → κ) (n : ℕ) (l : List α) :
    (topBy key n l).Pairwise fun a b => key a ≤ key b :=
  (List.pairwise_insertionSort _ l).sublist (List.take_sublist n _)

theorem subperm_topBy (key : α → κ) (n : ℕ) (l : List α) : (topBy key n l).Subperm l :=
  (List.take_sublist n _).subperm.trans (List.perm_insertionSort _ l).subperm

/-- The sort keeps the elements of a key in their order. -/
theorem filter_insertionSort (key : α → κ) (k : κ) (l : List α) :
    (l.insertionSort fun a b => key a ≤ key b).filter (fun a => key a = k) =
      l.filter fun a => key a = k := by
  have hperm := (List.perm_insertionSort (fun a b => key a ≤ key b) l).filter fun a => key a = k
  have hequal : (l.filter fun a => key a = k).Pairwise fun a b => key a ≤ key b := by
    apply List.pairwise_of_forall_mem_list
    intro a ha b hb
    have hka : key a = k := by simpa using (List.mem_filter.mp ha).2
    have hkb : key b = k := by simpa using (List.mem_filter.mp hb).2
    rw [hka, hkb]
  have hsub := (List.sublist_insertionSort hequal List.filter_sublist).filter fun a => key a = k
  rw [List.filter_filter] at hsub
  simp only [Bool.and_self] at hsub
  exact (hsub.eq_of_length hperm.length_eq.symm).symm

/-- Of the elements of a key the first ones are selected, in their order. -/
theorem filter_topBy_prefix (key : α → κ) (n : ℕ) (k : κ) (l : List α) :
    (topBy key n l).filter (fun a => key a = k) <+: l.filter fun a => key a = k := by
  rw [← filter_insertionSort key k l]
  exact (List.take_prefix n _).filter _

/-- No element that is left out has a smaller key than one that is selected. -/
theorem key_le_of_count_lt [DecidableEq α] {b : α} (ha : a ∈ topBy key n l)
    (hb : (topBy key n l).count b < l.count b) : key a ≤ key b := by
  have hsorted := List.pairwise_insertionSort (fun a b => key a ≤ key b) l
  have hcount := (List.perm_insertionSort (fun a b => key a ≤ key b) l).count_eq b
  rw [← List.take_append_drop n (l.insertionSort fun a b => key a ≤ key b)] at hsorted hcount
  rw [List.count_append] at hcount
  have hdrop : b ∈ (l.insertionSort fun a b => key a ≤ key b).drop n := by
    rw [← List.count_pos_iff]
    unfold topBy at hb
    omega
  exact (List.pairwise_append.mp hsorted).2.2 a ha b hdrop

/-! ### Ties that do not agree -/

theorem filter_trichotomy_perm (key : α → κ) (k : κ) (l : List α) :
    (l.filter (fun a => key a < k) ++
      (l.filter (fun a => key a = k) ++ l.filter fun a => k < key a)).Perm l := by
  induction l with
  | nil => exact List.Perm.nil
  | cons x l ih =>
    rcases lt_trichotomy (key x) k with hlt | heq | hgt
    · simpa [hlt, hlt.ne, hlt.not_gt] using ih
    · simp only [List.filter_cons, heq, lt_irrefl, decide_false, decide_true, if_true,
        Bool.false_eq_true, if_false, List.cons_append]
      exact List.perm_middle.trans (ih.cons x)
    · simp only [List.filter_cons, hgt, hgt.ne', hgt.not_gt, decide_false, decide_true, if_true,
        Bool.false_eq_true, if_false]
      rw [← List.append_assoc]
      refine List.perm_middle.trans (List.Perm.cons x ?_)
      rw [List.append_assoc]
      exact ih

section Arrange

variable (key) (p q : α) (rest : List α) (i : ℕ)

/-- The others with a smaller key. -/
def below : List α := (rest.insertionSort fun a b => key a ≤ key b).filter fun a => key a < key p

/-- The others with the same key. -/
def tied : List α := (rest.insertionSort fun a b => key a ≤ key b).filter fun a => key a = key p

/-- The others with a greater key. -/
def above : List α := (rest.insertionSort fun a b => key a ≤ key b).filter fun a => key p < key a

/-- A sorted order of `p`, `q` and the others, where `p` and `q` have the same key: `q` follows `p`,
which follows `i` of the others with this key. -/
def arrange : List α :=
  below key p rest ++ (tied key p rest).take i ++
    p :: q :: ((tied key p rest).drop i ++ above key p rest)

theorem arrange_perm : (arrange key p q rest i).Perm (p :: q :: rest) := by
  refine List.perm_middle.trans (List.Perm.cons p (List.perm_middle.trans (List.Perm.cons q ?_)))
  rw [List.append_assoc, ← List.append_assoc (List.take i _), List.take_append_drop]
  exact (filter_trichotomy_perm key (key p) _).trans (List.perm_insertionSort _ rest)

theorem pairwise_arrange (h : key p = key q) :
    (arrange key p q rest i).Pairwise fun a b => key a ≤ key b := by
  have hsorted := List.pairwise_insertionSort (fun a b => key a ≤ key b) rest
  have hbelow : ∀ a ∈ below key p rest, key a < key p := by
    intro a ha
    simpa using (List.mem_filter.mp ha).2
  have htied : ∀ a ∈ tied key p rest, key a = key p := by
    intro a ha
    simpa using (List.mem_filter.mp ha).2
  have habove : ∀ a ∈ above key p rest, key p < key a := by
    intro a ha
    simpa using (List.mem_filter.mp ha).2
  have hleft : ∀ a ∈ below key p rest ++ (tied key p rest).take i, key a ≤ key p := by
    intro a ha
    rcases List.mem_append.mp ha with ha | ha
    · exact (hbelow a ha).le
    · exact (htied a (List.mem_of_mem_take ha)).le
  have hright : ∀ a ∈ (tied key p rest).drop i ++ above key p rest, key p ≤ key a := by
    intro a ha
    rcases List.mem_append.mp ha with ha | ha
    · exact (htied a (List.mem_of_mem_drop ha)).ge
    · exact (habove a ha).le
  have htake : ((tied key p rest).take i).Pairwise fun a b => key a ≤ key b :=
    (hsorted.filter _).sublist (List.take_sublist _ _)
  have hdrop : ((tied key p rest).drop i).Pairwise fun a b => key a ≤ key b :=
    (hsorted.filter _).sublist (List.drop_sublist _ _)
  rw [arrange, List.pairwise_append, List.pairwise_append, List.pairwise_cons,
    List.pairwise_cons, List.pairwise_append]
  refine ⟨⟨hsorted.filter _, htake, fun a ha b hb => ?_⟩,
    ⟨fun b hb => ?_, fun b hb => ?_, hdrop, hsorted.filter _, fun a ha b hb => ?_⟩,
    fun a ha b hb => ?_⟩
  · rw [htied b (List.mem_of_mem_take hb)]
    exact (hbelow a ha).le
  · rcases List.mem_cons.mp hb with rfl | hb
    · exact h.le
    · exact hright b hb
  · rw [← h]
    exact hright b hb
  · rw [htied a (List.mem_of_mem_drop ha)]
    exact (habove b hb).le
  · refine (hleft a ha).trans ?_
    rcases List.mem_cons.mp hb with rfl | hb
    · exact le_rfl
    · rcases List.mem_cons.mp hb with rfl | hb
      · exact h.le
      · exact hright b hb

/-- As many elements have a smaller key as there are `below`. -/
theorem countP_lt (h : key p = key q) :
    (p :: q :: rest).countP (fun a => key a < key p) = (below key p rest).length := by
  rw [List.countP_cons, List.countP_cons, below, ← List.countP_eq_length_filter,
    (List.perm_insertionSort _ rest).countP_eq, ← h]
  simp

theorem countP_le (h : key p = key q) :
    (p :: q :: rest).countP (fun a => key a ≤ key p) =
      (below key p rest).length + (tied key p rest).length + 2 := by
  have hbelow : (below key p rest).countP (fun a => key a ≤ key p) =
      (below key p rest).length := by
    refine List.countP_eq_length.mpr fun a ha => ?_
    have hlt : key a < key p := by simpa using (List.mem_filter.mp ha).2
    exact decide_eq_true hlt.le
  have htied : (tied key p rest).countP (fun a => key a ≤ key p) = (tied key p rest).length := by
    refine List.countP_eq_length.mpr fun a ha => ?_
    have heq : key a = key p := by simpa using (List.mem_filter.mp ha).2
    exact decide_eq_true heq.le
  have habove : (above key p rest).countP (fun a => key a ≤ key p) = 0 := by
    refine List.countP_eq_zero.mpr fun a ha => ?_
    have hlt : key p < key a := by simpa using (List.mem_filter.mp ha).2
    simpa using hlt
  have hrest : rest.countP (fun a => key a ≤ key p) =
      (below key p rest).length + (tied key p rest).length := by
    rw [← (List.perm_insertionSort (fun a b => key a ≤ key b) rest).countP_eq,
      ← (filter_trichotomy_perm key (key p) _).countP_eq, List.countP_append, List.countP_append]
    show (below key p rest).countP _ + ((tied key p rest).countP _ +
      (above key p rest).countP _) = _
    rw [hbelow, htied, habove, Nat.add_zero]
  rw [List.countP_cons, List.countP_cons, hrest, if_pos (decide_eq_true h.ge),
    if_pos (decide_eq_true le_rfl)]

end Arrange

theorem topBy_of_pairwise (hs : s.Pairwise fun a b => key a ≤ key b) (n : ℕ) :
    topBy key n s = s.take n := by
  rw [topBy, hs.insertionSort_eq]

/-- Two neighbours that change places before the cut. -/
theorem append_comm_of_flatMap_take {x r : List α} {p q : α} (hn : x.length + 2 ≤ n)
    (h : ((x ++ p :: q :: r).take n).flatMap word = ((x ++ q :: p :: r).take n).flatMap word) :
    word p ++ word q = word q ++ word p := by
  have htake : ∀ a b, (x ++ a :: b :: r).take n = x ++ a :: b :: r.take (n - x.length - 2) := by
    intro a b
    rw [List.take_append, List.take_of_length_le (by omega),
      show n - x.length = (n - x.length - 2) + 1 + 1 by omega, List.take_succ_cons,
      List.take_succ_cons]
    rfl
  simp only [htake, List.flatMap_append, List.flatMap_cons] at h
  have hcancel := List.append_cancel_left h
  rw [← List.append_assoc, ← List.append_assoc] at hcancel
  exact List.append_cancel_right hcancel

/-- Two neighbours that change places at the cut. -/
theorem eq_of_flatMap_take {x r r' : List α} {p q : α} (hn : x.length + 1 = n)
    (h : ((x ++ p :: r).take n).flatMap word = ((x ++ q :: r').take n).flatMap word) :
    word p = word q := by
  have htake : ∀ a (r : List α), (x ++ a :: r).take n = x ++ [a] := by
    intro a r
    rw [List.take_append, List.take_of_length_le (by omega),
      show n - x.length = 0 + 1 by omega, List.take_succ_cons, List.take_zero]
  simp only [htake, List.flatMap_append, List.flatMap_singleton] at h
  exact List.append_cancel_left h

/-- If the order does not matter, it does not matter for two elements with the same key. -/
theorem tiesAgree_of_flatMap_topBy
    (h : ∀ s, s.Perm l → (topBy key n s).flatMap word = (topBy key n l).flatMap word) :
    TiesAgree key word n l := by
  intro p hp q hq hkey hlt
  by_cases hpq : p = q
  · rw [hpq]
    split_ifs <;> rfl
  obtain ⟨u, v, rfl⟩ := List.append_of_mem hp
  obtain ⟨rest, hrest⟩ : ∃ rest, (u ++ p :: v).Perm (p :: q :: rest) := by
    have hqmem : q ∈ u ++ v := by
      rcases List.mem_append.mp hq with hq | hq
      · exact List.mem_append_left v hq
      · exact List.mem_append_right u ((List.mem_cons.mp hq).resolve_left (Ne.symm hpq))
    obtain ⟨u', v', huv⟩ := List.append_of_mem hqmem
    refine ⟨u' ++ v', List.perm_middle.trans (List.Perm.cons p ?_)⟩
    rw [huv]
    exact List.perm_middle
  -- `q` behind `p` or `p` behind `q`, with the same elements before them
  have hswap : ∀ i, ((below key p rest ++ (tied key p rest).take i ++
        p :: q :: ((tied key p rest).drop i ++ above key p rest)).take n).flatMap word =
      ((below key p rest ++ (tied key p rest).take i ++
        q :: p :: ((tied key p rest).drop i ++ above key p rest)).take n).flatMap word := by
    intro i
    have hfirst := h _ ((arrange_perm key p q rest i).trans hrest.symm)
    have hsecond := h _ (((arrange_perm key q p rest i).trans
      (List.Perm.swap p q rest)).trans hrest.symm)
    rw [topBy_of_pairwise (pairwise_arrange key p q rest i hkey)] at hfirst
    rw [topBy_of_pairwise (pairwise_arrange key q p rest i hkey.symm), ← hfirst] at hsecond
    have hsame : arrange key q p rest i = below key p rest ++ (tied key p rest).take i ++
        q :: p :: ((tied key p rest).drop i ++ above key p rest) := by
      rw [arrange, below, tied, above, ← hkey]
      rfl
    rw [hsame] at hsecond
    exact hsecond.symm
  rw [hrest.countP_eq, countP_lt key p q rest hkey] at hlt
  rw [hrest.countP_eq, countP_le key p q rest hkey]
  split_ifs with hle
  · have hcut := hswap 0
    rw [List.take_zero, List.append_nil] at hcut
    exact append_comm_of_flatMap_take (by omega) hcut
  · -- as many of the others before them that the cut goes between the two
    have hcut := hswap (n - 1 - (below key p rest).length)
    refine eq_of_flatMap_take ?_ hcut
    rw [List.length_append, List.length_take]
    omega

/-- **When the order does not matter** for the words of the first `n` elements. -/
theorem flatMap_topBy_eq_iff :
    (∀ s, s.Perm l → (topBy key n s).flatMap word = (topBy key n l).flatMap word) ↔
      TiesAgree key word n l := by
  refine ⟨tiesAgree_of_flatMap_topBy, fun h s hs => ?_⟩
  have hsl := (List.perm_insertionSort (fun a b => key a ≤ key b) s).trans
    (hs.trans (List.perm_insertionSort (fun a b => key a ≤ key b) l).symm)
  exact flatMap_take_eq_of_perm (List.pairwise_insertionSort _ s) (List.pairwise_insertionSort _ l)
    hsl ((h.perm hs.symm).perm (List.perm_insertionSort _ s).symm)

end MarketplacePipeline.TopByKey
