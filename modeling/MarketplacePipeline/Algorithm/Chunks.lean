import Mathlib.Data.List.Basic

/-!
# Chunks of a list

`chunks size l` cuts a list into pieces of `size` elements, the last of which may be shorter.  The
element at position `i` is in the piece `i / size` (`mem_of_getElem?_chunks`).
-/

namespace MarketplacePipeline.Chunks

variable {α : Type*} {size : ℕ} {l : List α}

/-- The pieces `l[0:size]`, `l[size:2 * size]`, ...; there is none if `size` is zero. -/
def chunks (size : ℕ) (l : List α) : List (List α) :=
  (List.range ((l.length + size - 1) / size)).map fun k => (l.drop (k * size)).take size

theorem getElem?_chunks {k : ℕ} {piece : List α} (h : (chunks size l)[k]? = some piece) :
    piece = (l.drop (k * size)).take size := by
  unfold chunks at h
  rw [List.getElem?_map, Option.map_eq_some_iff] at h
  obtain ⟨m, hm, rfl⟩ := h
  obtain ⟨-, rfl⟩ : k < (l.length + size - 1) / size ∧ k = m := by
    simpa [List.getElem?_eq_some_iff] using hm
  rfl

/-- The positions of the elements of a piece. -/
theorem exists_of_mem_chunks {k : ℕ} {piece : List α} (h : (chunks size l)[k]? = some piece)
    {a : α} (ha : a ∈ piece) : ∃ i, l[i]? = some a ∧ i / size = k := by
  rw [getElem?_chunks h] at ha
  obtain ⟨m, hm, hget⟩ := List.getElem_of_mem ha
  have hsize : m < size := by
    rw [List.length_take] at hm
    omega
  refine ⟨k * size + m, ?_, ?_⟩
  · have hget? : ((l.drop (k * size)).take size)[m]? = some a := by
      rw [List.getElem?_eq_getElem hm, hget]
    rw [List.getElem?_take_of_lt hsize, List.getElem?_drop] at hget?
    exact hget?
  · rw [Nat.add_comm, Nat.add_mul_div_right _ _ (by omega), Nat.div_eq_of_lt hsize, Nat.zero_add]

/-- The piece of an element. -/
theorem mem_of_getElem?_chunks (hsize : 0 < size) {i : ℕ} {a : α} (h : l[i]? = some a) :
    ∃ piece, (chunks size l)[i / size]? = some piece ∧ a ∈ piece := by
  obtain ⟨hi, -⟩ := List.getElem?_eq_some_iff.mp h
  have hcount : i / size < (l.length + size - 1) / size := by
    have hdiv : i / size + 1 = (i + size) / size := by
      rw [Nat.add_div_right _ hsize]
    rw [Nat.lt_iff_add_one_le, hdiv]
    exact Nat.div_le_div_right (by omega)
  refine ⟨(l.drop (i / size * size)).take size, ?_, ?_⟩
  · unfold chunks
    rw [List.getElem?_map, List.getElem?_range hcount]
    rfl
  · have hmod : i / size * size + i % size = i := Nat.div_add_mod' i size
    have hlt : i % size < size := Nat.mod_lt i hsize
    refine List.mem_of_getElem? (i := i % size) ?_
    rw [List.getElem?_take_of_lt hlt, List.getElem?_drop, hmod]
    exact h

theorem length_chunks (size : ℕ) (l : List α) :
    (chunks size l).length = (l.length + size - 1) / size := by
  rw [chunks, List.length_map, List.length_range]

theorem flatten_pieces (size k : ℕ) (l : List α) :
    ((List.range k).map fun i => (l.drop (i * size)).take size).flatten = l.take (k * size) := by
  induction k with
  | zero => simp
  | succ k ih =>
    rw [List.range_succ, List.map_append, List.flatten_append, ih, Nat.succ_mul, List.take_add]
    simp

/-- The pieces are the list. -/
theorem flatten_chunks (hsize : 0 < size) (l : List α) : (chunks size l).flatten = l := by
  rw [chunks, flatten_pieces]
  apply List.take_of_length_le
  have hdiv := Nat.lt_div_mul_add (a := l.length + size - 1) hsize
  omega

end MarketplacePipeline.Chunks
