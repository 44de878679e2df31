import Mathlib.Logic.Function.Basic
import Mathlib.Tactic.Common

/-!
# Files

`Files ν γ` is a directory as the kernel keeps it: the inode that each name stands for, and the
content of every inode.  An open file is an inode, so what is written to it appears under whatever
name the inode has by then, or under none.  `openTruncate`, `write` and `rename` are the system
calls, each atomic; the lemmas below say for each of them what can be read under every name
afterwards.
-/

namespace MarketplacePipeline

/-- The names and the inodes of a directory. -/
structure Files (ν γ : Type*) where
  inode : ν → Option ℕ
  content : ℕ → γ
  /-- The inodes from here on are free. -/
  next : ℕ
  lt_next : ∀ {n i}, inode n = some i → i < next
  /-- There are no hard links. -/
  unique : ∀ {n n' i}, inode n = some i → inode n' = some i → n = n'

namespace Files

variable {ν γ : Type*} {n n' : ν} {i : ℕ}

/-- What a name reads as. -/
def read (f : Files ν γ) (n : ν) : Option γ := (f.inode n).map f.content

/-- The content of an open file changes. -/
def write (f : Files ν γ) (i : ℕ) (c : γ) : Files ν γ :=
  { f with content := Function.update f.content i c }

@[simp] theorem inode_write (f : Files ν γ) (i : ℕ) (c : γ) : (f.write i c).inode = f.inode := rfl

@[simp] theorem content_write_self (f : Files ν γ) (i : ℕ) (c : γ) : (f.write i c).content i = c :=
  Function.update_self _ _ _

/-- Writing to a file leaves what is read under every other name. -/
theorem read_write_of_ne {f : Files ν γ} (c : γ) (hi : f.inode n = some i) (h : n' ≠ n) :
    (f.write i c).read n' = f.read n' := by
  unfold write read
  refine Option.map_congr fun j hj => Function.update_of_ne ?_ _ _
  rintro rfl
  exact h (f.unique hj hi)

variable [DecidableEq ν]

theorem lt_next_create (f : Files ν γ) (n : ν) {n' : ν} {i : ℕ}
    (h : Function.update f.inode n (some f.next) n' = some i) : i < f.next + 1 := by
  rw [Function.update_apply] at h
  split_ifs at h
  · rw [← Option.some.inj h]
    exact Nat.lt_succ_self _
  · exact Nat.lt_succ_of_lt (f.lt_next h)

theorem unique_create (f : Files ν γ) (n : ν) {n' n'' : ν} {i : ℕ}
    (h' : Function.update f.inode n (some f.next) n' = some i)
    (h'' : Function.update f.inode n (some f.next) n'' = some i) : n' = n'' := by
  rw [Function.update_apply] at h' h''
  split_ifs at h' h'' with hn' hn'' hn''
  · rw [hn', hn'']
  · rw [← Option.some.inj h'] at h''
    exact absurd (f.lt_next h'') (Nat.lt_irrefl _)
  · rw [← Option.some.inj h''] at h'
    exact absurd (f.lt_next h') (Nat.lt_irrefl _)
  · exact f.unique h' h''

theorem inode_of_rename {f : Files ν γ} {old new n : ν} {i j : ℕ}
    (h : Function.update (Function.update f.inode old none) new (some i) n = some j) :
    n = new ∧ j = i ∨ n ≠ new ∧ n ≠ old ∧ f.inode n = some j := by
  rw [Function.update_apply, Function.update_apply] at h
  split_ifs at h with hnew hold
  · exact Or.inl ⟨hnew, (Option.some.inj h).symm⟩
  · exact Or.inr ⟨hnew, hold, h⟩

theorem lt_next_rename {f : Files ν γ} {old new n : ν} {i j : ℕ} (hi : f.inode old = some i)
    (h : Function.update (Function.update f.inode old none) new (some i) n = some j) :
    j < f.next := by
  rcases inode_of_rename h with ⟨-, rfl⟩ | ⟨-, -, hj⟩
  · exact f.lt_next hi
  · exact f.lt_next hj

theorem unique_rename {f : Files ν γ} {old new n n' : ν} {i j : ℕ} (hi : f.inode old = some i)
    (h : Function.update (Function.update f.inode old none) new (some i) n = some j)
    (h' : Function.update (Function.update f.inode old none) new (some i) n' = some j) :
    n = n' := by
  rcases inode_of_rename h with ⟨hn, hj⟩ | ⟨-, hn, hj⟩ <;>
    rcases inode_of_rename h' with ⟨hn', hj'⟩ | ⟨-, hn', hj'⟩
  · rw [hn, hn']
  · rw [hj] at hj'
    exact absurd (f.unique hj' hi) hn'
  · rw [hj'] at hj
    exact absurd (f.unique hj hi) hn
  · exact f.unique hj hj'

/-- `open(n, O_WRONLY | O_CREAT | O_TRUNC)`: the inode that was opened. -/
def openTruncate (f : Files ν γ) (empty : γ) (n : ν) : ℕ × Files ν γ :=
  match f.inode n with
  | some i => (i, { f with content := Function.update f.content i empty })
  | none =>
    (f.next,
      { inode := Function.update f.inode n (some f.next)
        content := Function.update f.content f.next empty
        next := f.next + 1
        lt_next := f.lt_next_create n
        unique := f.unique_create n })

/-- `open(n, O_RDWR | O_CREAT)`, of a file that is not read or written. -/
def openCreate (f : Files ν γ) (empty : γ) (n : ν) : Files ν γ :=
  if f.inode n = none then (f.openTruncate empty n).2 else f

/-- `rename(old, new)`; `none` is `ENOENT`. -/
def rename (f : Files ν γ) (old new : ν) : Option (Files ν γ) :=
  match h : f.inode old with
  | none => none
  | some i =>
    some
      { f with
        inode := Function.update (Function.update f.inode old none) new (some i)
        lt_next := lt_next_rename h
        unique := unique_rename h }

variable (f : Files ν γ)

@[simp] theorem inode_openTruncate_self (empty : γ) (n : ν) :
    (f.openTruncate empty n).2.inode n = some (f.openTruncate empty n).1 := by
  unfold openTruncate
  split
  · assumption
  · exact Function.update_self _ _ _

@[simp] theorem content_openTruncate_self (empty : γ) (n : ν) :
    (f.openTruncate empty n).2.content (f.openTruncate empty n).1 = empty := by
  unfold openTruncate
  split <;> exact Function.update_self _ _ _

/-- Opening a file leaves what is read under every other name. -/
theorem read_openTruncate_of_ne (empty : γ) (h : n' ≠ n) :
    (f.openTruncate empty n).2.read n' = f.read n' := by
  unfold openTruncate read
  split
  · rename_i i hi
    refine Option.map_congr fun j hj => Function.update_of_ne ?_ _ _
    rintro rfl
    exact h (f.unique hj hi)
  · dsimp only
    rw [Function.update_of_ne h]
    refine Option.map_congr fun j hj => Function.update_of_ne ?_ _ _
    exact Nat.ne_of_lt (f.lt_next hj)

/-- A file that was there is left alone, another one is empty. -/
theorem read_openCreate (empty : γ) (n n' : ν) :
    (f.openCreate empty n).read n' =
      if n' = n then some ((f.read n).getD empty) else f.read n' := by
  unfold openCreate
  by_cases hnone : f.inode n = none
  · rw [if_pos hnone]
    by_cases hn : n' = n
    · rw [if_pos hn, hn]
      simp [read, hnone]
    · rw [if_neg hn, read_openTruncate_of_ne f empty hn]
  · rw [if_neg hnone]
    obtain ⟨i, hi⟩ := Option.ne_none_iff_exists'.mp hnone
    by_cases hn : n' = n
    · rw [if_pos hn, hn]
      simp [read, hi]
    · rw [if_neg hn]

theorem rename_eq_none_iff {f : Files ν γ} {old new : ν} :
    f.rename old new = none ↔ f.inode old = none := by
  unfold rename
  split
  · rename_i h
    exact iff_of_true rfl h
  · rename_i i h
    refine iff_of_false (Option.some_ne_none _) ?_
    rw [h]
    exact Option.some_ne_none i

/-- The file moves to its new name, with its content. -/
theorem read_rename {f f' : Files ν γ} {old new : ν} (hne : old ≠ new)
    (h : f.rename old new = some f') :
    f'.read new = f.read old ∧ f'.inode old = none ∧
      ∀ n, n ≠ old → n ≠ new → f'.read n = f.read n := by
  unfold rename at h
  split at h
  · cases h
  · rename_i i hi
    obtain rfl := Option.some.inj h
    refine ⟨?_, ?_, fun n hold hnew => ?_⟩
    · simp [read, hi]
    · simp [Function.update_of_ne hne]
    · simp [read, Function.update_of_ne hold, Function.update_of_ne hnew]

end Files

end MarketplacePipeline
