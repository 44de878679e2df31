import MarketplacePipeline.Io.AtomicWrite
import Mathlib.Data.Fintype.Basic

/-!
# Writers of one file

All writers use one temporary name, so a writer that opens it while another one is between its
`open` and its `os.replace` truncates, and shares, the file of the other one.  As long as no writer
does so, the writes are atomic (`WriteInv`); once one has, some `os.replace` will not find the
temporary file (`Overlap`).
-/

namespace MarketplacePipeline.AtomicWrite

open Schedule

variable {ι : Type*}

/-! ### The specification -/

/-- The target holds what it held at the start or all of what one writer wrote. -/
def Complete (writers : Writers ι) (files : Files Str (List UInt8)) (s : WriteState ι) : Prop :=
  s.shared.read writers.path = files.read writers.path ∨
    ∃ i, s.pc i = .returned ∧ s.shared.read writers.path = some (writers.content i)

/-- The writer is between its `open` and its `os.replace`. -/
def WritePc.Writing : WritePc → Prop
  | .write _ _ => True
  | _ => False

instance : DecidablePred WritePc.Writing
  | .write _ _ => .isTrue trivial
  | .openTmp | .returned | .raised | .crashed => .isFalse id

/-- A writer that opens the temporary file is the only one that writes to it. -/
def OpensAlone : WriteEvent ι → WriteState ι → Prop
  | .call i _, s => s.pc i = .openTmp → ∀ j, ¬ (s.pc j).Writing
  | .crash _, _ => True

instance [Fintype ι] : (a : WriteEvent ι) → (s : WriteState ι) → Decidable (OpensAlone a s)
  | .call i _, s => inferInstanceAs (Decidable (s.pc i = .openTmp → ∀ j, ¬ (s.pc j).Writing))
  | .crash _, _ => .isTrue trivial

/-! ### One writer at a time -/

/-- What the steps of writers keep that open the temporary file alone. -/
structure WriteInv (writers : Writers ι) (files : Files Str (List UInt8)) (s : WriteState ι) :
    Prop where
  alone : ∀ i j, (s.pc i).Writing → (s.pc j).Writing → i = j
  tmp : ∀ i inode offset, s.pc i = .write inode offset →
    s.shared.inode (tmpPath writers.path) = some inode ∧
      s.shared.content inode = (writers.content i).take offset
  complete : Complete writers files s
  quiet : ∀ i, s.pc i ≠ .raised

theorem overwrite_take {content : List UInt8} {offset : ℕ} (h : offset ≤ content.length)
    (size : ℕ) : overwrite (content.take offset) offset ((content.drop offset).take size) =
      content.take (offset + ((content.drop offset).take size).length) := by
  have hlen : (content.take offset).length = offset := List.length_take_of_le h
  have hchunk : (content.drop offset).take ((content.drop offset).take size).length =
      (content.drop offset).take size :=
    (List.prefix_iff_eq_take.mp (List.take_prefix size _)).symm
  have hrest : (content.take offset).drop (offset + ((content.drop offset).take size).length) =
      [] := by
    rw [List.drop_eq_nil_iff, hlen]
    exact Nat.le_add_right _ _
  rw [overwrite, hlen, Nat.sub_self, List.replicate_zero, List.append_nil, List.take_take,
    Nat.min_self, hrest, List.append_nil, List.take_add, hchunk]

/-- The system calls of a writer. -/
inductive Calls (path : Str) (content : List UInt8) (size : ℕ) :
    WritePc → Files Str (List UInt8) → WritePc × Files Str (List UInt8) → Prop
  | openTmp (files) : Calls path content size .openTmp files
      (.write (files.openTruncate [] (tmpPath path)).1 0,
        (files.openTruncate [] (tmpPath path)).2)
  | chunk (inode offset files) (h : offset < content.length) :
      Calls path content size (.write inode offset) files
        (.write inode (offset + ((content.drop offset).take size).length),
          files.write inode
            (overwrite (files.content inode) offset ((content.drop offset).take size)))
  | replaced (inode offset files files') (h : content.length ≤ offset)
      (hrename : files.rename (tmpPath path) path = some files') :
      Calls path content size (.write inode offset) files (.returned, files')
  | missing (inode offset files) (h : content.length ≤ offset)
      (hrename : files.inode (tmpPath path) = none) :
      Calls path content size (.write inode offset) files (.raised, files)
  | ended (pc files) (hopen : pc ≠ .openTmp) (hwriting : ¬ pc.Writing) :
      Calls path content size pc files (pc, files)

theorem writeStep_calls (path : Str) (content : List UInt8) (size : ℕ) (pc : WritePc)
    (files : Files Str (List UInt8)) :
    Calls path content size pc files (writeStep path content size pc files) := by
  cases pc with
  | openTmp => exact .openTmp files
  | write inode offset =>
    rw [writeStep]
    split_ifs with h
    · exact .chunk inode offset files h
    · cases hrename : files.rename (tmpPath path) path with
      | none =>
        exact .missing inode offset files (not_lt.mp h) (Files.rename_eq_none_iff.mp hrename)
      | some files' => exact .replaced inode offset files files' (not_lt.mp h) hrename
  | returned => exact .ended _ _ (by simp) (by simp [WritePc.Writing])
  | raised => exact .ended _ _ (by simp) (by simp [WritePc.Writing])
  | crashed => exact .ended _ _ (by simp) (by simp [WritePc.Writing])

section Step

variable [DecidableEq ι] {writers : Writers ι} {files : Files Str (List UInt8)}
  {s : WriteState ι} {i : ι}

/-- A writer moves while no other one writes. -/
theorem WriteInv.move (h : WriteInv writers files s) {pc : WritePc}
    {files' : Files Str (List UInt8)} (hothers : ∀ j, j ≠ i → ¬ (s.pc j).Writing)
    (htmp : ∀ inode offset, pc = .write inode offset →
      files'.inode (tmpPath writers.path) = some inode ∧
        files'.content inode = (writers.content i).take offset)
    (hcomplete : Complete writers files ⟨files', Function.update s.pc i pc⟩)
    (hquiet : pc ≠ .raised) : WriteInv writers files ⟨files', Function.update s.pc i pc⟩ := by
  have hwriting : ∀ j, (Function.update s.pc i pc j).Writing → j = i := by
    intro j hj
    by_contra hne
    rw [Function.update_of_ne hne] at hj
    exact hothers j hne hj
  refine ⟨fun j k hj hk => by rw [hwriting j hj, hwriting k hk], ?_, hcomplete, fun j => ?_⟩
  · intro j inode offset hj
    dsimp only at hj
    have hji : j = i := hwriting j (by rw [hj]; trivial)
    subst hji
    rw [Function.update_self] at hj
    exact htmp inode offset hj
  · show Function.update s.pc i pc j ≠ .raised
    by_cases hj : j = i
    · rw [hj, Function.update_self]
      exact hquiet
    · rw [Function.update_of_ne hj]
      exact h.quiet j

/-- What is read from the target stays, and nobody forgets that it returned. -/
theorem Complete.move (h : Complete writers files s) {pc : WritePc}
    {files' : Files Str (List UInt8)}
    (hread : files'.read writers.path = s.shared.read writers.path)
    (hpc : s.pc i ≠ .returned) : Complete writers files ⟨files', Function.update s.pc i pc⟩ := by
  rcases h with hstart | ⟨j, hj, hcontent⟩
  · exact Or.inl (hread.trans hstart)
  · refine Or.inr ⟨j, ?_, hread.trans hcontent⟩
    have hne : j ≠ i := by
      rintro rfl
      exact hpc hj
    exact (Function.update_of_ne hne _ _).trans hj

/-- The step lemma for the system calls of a writer. -/
theorem WriteInv.call (h : WriteInv writers files s) (size : ℕ)
    (halone : s.pc i = .openTmp → ∀ j, ¬ (s.pc j).Writing) :
    WriteInv writers files (step writers (.call i size) s) := by
  have hne := (tmpPath_ne writers.path).symm
  have hcalls := writeStep_calls writers.path (writers.content i) size (s.pc i) s.shared
  rw [step, stepParty]
  generalize writeStep writers.path (writers.content i) size (s.pc i) s.shared = res at hcalls ⊢
  generalize hpc : s.pc i = pc at hcalls
  generalize hfiles : s.shared = shared at hcalls
  have hothers : pc.Writing → ∀ j, j ≠ i → ¬ (s.pc j).Writing := by
    intro hwriting j hj hother
    rw [← hpc] at hwriting
    exact hj (h.alone j i hother hwriting)
  cases hcalls with
  | openTmp =>
    refine h.move (fun j _ => halone hpc j) ?_ (h.complete.move ?_ ?_) (by simp)
    · intro inode offset heq
      obtain ⟨rfl, rfl⟩ := WritePc.write.inj heq
      exact ⟨Files.inode_openTruncate_self _ _ _, Files.content_openTruncate_self _ _ _⟩
    · rw [hfiles]
      exact Files.read_openTruncate_of_ne _ _ hne
    · simp [hpc]
  | chunk inode offset _ hlt =>
    obtain ⟨hinode, hcontent⟩ := h.tmp i inode offset hpc
    rw [hfiles] at hinode hcontent
    refine h.move (hothers trivial) ?_ (h.complete.move ?_ ?_) (by simp)
    · intro inode' offset' heq
      obtain ⟨rfl, rfl⟩ := WritePc.write.inj heq
      rw [Files.inode_write, Files.content_write_self, hcontent, overwrite_take hlt.le]
      exact ⟨hinode, rfl⟩
    · rw [hfiles]
      exact Files.read_write_of_ne _ hinode hne
    · simp [hpc]
  | replaced inode offset _ files' hle hrename =>
    obtain ⟨hinode, hcontent⟩ := h.tmp i inode offset hpc
    rw [hfiles] at hinode hcontent
    have hread : files'.read writers.path = some (writers.content i) := by
      rw [(Files.read_rename hne.symm hrename).1, Files.read, hinode, Option.map_some, hcontent,
        List.take_of_length_le hle]
    refine h.move (hothers trivial) (by simp) (Or.inr ⟨i, ?_, hread⟩) (by simp)
    exact Function.update_self _ _ _
  | missing inode offset _ hle hrename =>
    -- the temporary file of the only writer is there
    have hinode := (h.tmp i inode offset hpc).1
    rw [hfiles, hrename] at hinode
    cases hinode
  | ended _ _ hopen hwriting =>
    rw [← hpc, ← hfiles, Function.update_eq_self]
    exact h

/-- The step lemma for the death of a process. -/
theorem WriteInv.crash (h : WriteInv writers files s) :
    WriteInv writers files (step writers (.crash i) s) := by
  have hpc : ∀ j, (step writers (.crash i) s).pc j = s.pc j ∨
      (step writers (.crash i) s).pc j = .crashed ∧ s.pc j ≠ .returned := by
    intro j
    by_cases hj : j = i
    · subst hj
      rw [step, pc_stepParty_self]
      cases s.pc j <;> simp [crashStep]
    · exact Or.inl (pc_stepParty_of_ne hj)
  have hshared : (step writers (.crash i) s).shared = s.shared := by
    show (crashStep (s.pc i) s.shared).2 = s.shared
    cases s.pc i <;> rfl
  have hsame : ∀ j pc, pc ≠ .crashed → (step writers (.crash i) s).pc j = pc → s.pc j = pc := by
    intro j pc hcrashed hj
    rcases hpc j with hold | ⟨hnew, -⟩
    · rw [← hold, hj]
    · exact absurd (hj.symm.trans hnew) hcrashed
  have hwriting : ∀ j, ((step writers (.crash i) s).pc j).Writing → (s.pc j).Writing := by
    intro j hj
    rcases hpc j with hold | ⟨hnew, -⟩
    · rw [← hold]
      exact hj
    · rw [hnew] at hj
      exact hj.elim
  refine ⟨fun j k hj hk => h.alone j k (hwriting j hj) (hwriting k hk), ?_, ?_, fun j hj => ?_⟩
  · intro j inode offset hj
    rw [hshared]
    exact h.tmp j inode offset (hsame j _ (by simp) hj)
  · rw [Complete, hshared]
    rcases h.complete with hstart | ⟨j, hj, hcontent⟩
    · exact Or.inl hstart
    · refine Or.inr ⟨j, ?_, hcontent⟩
      rcases hpc j with hold | ⟨-, hreturned⟩
      · rw [hold, hj]
      · exact absurd hj hreturned
  · exact h.quiet j (hsame j _ (by simp) hj)

/-- The run lemma. -/
theorem writeInv_run (writers : Writers ι) (files : Files Str (List UInt8))
    {schedule : List (WriteEvent ι)} (hm : Meets (step writers) OpensAlone (start files) schedule) :
    WriteInv writers files (run (step writers) (start files) schedule) := by
  have hstart : WriteInv writers files (start files : WriteState ι) :=
    ⟨fun i _ hi => hi.elim, fun i _ _ hi => (by cases hi), Or.inl rfl, fun i hi => (by cases hi)⟩
  refine invariant_run_of_meets (fun a s h halone => ?_) hstart hm
  cases a with
  | call i size => exact h.call size halone
  | crash i => exact h.crash

/-! ### Two writers at a time -/

/-- More writers are between `open` and `os.replace` than there are temporary files, or one of them
did not find its file. -/
def Overlap (writers : Writers ι) (s : WriteState ι) : Prop :=
  (∃ i j, i ≠ j ∧ (s.pc i).Writing ∧ (s.pc j).Writing) ∨
    (s.shared.inode (tmpPath writers.path) = none ∧ ∃ i, (s.pc i).Writing) ∨
    ∃ i, s.pc i = .raised

/-- A writer that opens the temporary file of another one makes an overlap. -/
theorem overlap_of_not_opensAlone {a : WriteEvent ι} (h : ¬ OpensAlone a s) :
    Overlap writers (step writers a s) := by
  rcases a with ⟨i, size⟩ | i
  swap
  · exact absurd trivial h
  unfold OpensAlone at h
  push Not at h
  obtain ⟨hopen, j, hj⟩ := h
  have hne : j ≠ i := by
    rintro rfl
    rw [hopen] at hj
    exact hj
  refine Or.inl ⟨i, j, hne.symm, ?_, ?_⟩
  · rw [step, pc_stepParty_self, hopen]
    trivial
  · rw [step, pc_stepParty_of_ne hne]
    exact hj

theorem pc_step_of_raised {j : ι} (hj : s.pc j = .raised) (a : WriteEvent ι) :
    (step writers a s).pc j = .raised := by
  cases a with
  | call i size =>
    by_cases h : j = i
    · rw [step, h, pc_stepParty_self, ← h, hj]
      rfl
    · rw [step, pc_stepParty_of_ne h, hj]
  | crash i =>
    by_cases h : j = i
    · rw [step, h, pc_stepParty_self, ← h, hj]
      rfl
    · rw [step, pc_stepParty_of_ne h, hj]

/-- No system call mends an overlap. -/
theorem Overlap.call (h : Overlap writers s) (size : ℕ) :
    Overlap writers (step writers (.call i size) s) := by
  by_cases hraised : ∃ j, s.pc j = .raised
  · obtain ⟨j, hj⟩ := hraised
    exact Or.inr (Or.inr ⟨j, pc_step_of_raised hj _⟩)
  have hcalls := writeStep_calls writers.path (writers.content i) size (s.pc i) s.shared
  rw [step, stepParty]
  generalize writeStep writers.path (writers.content i) size (s.pc i) s.shared = res at hcalls ⊢
  generalize hpc : s.pc i = pc at hcalls
  generalize hfiles : s.shared = shared at hcalls
  have hother : ∀ j, j ≠ i → (s.pc j).Writing → (Function.update s.pc i res.1 j).Writing := by
    intro j hj hwriting
    rw [Function.update_of_ne hj]
    exact hwriting
  have hself : res.1.Writing → (Function.update s.pc i res.1 i).Writing := by
    rw [Function.update_self]
    exact id
  have hall : res.1.Writing → ∀ j, (s.pc j).Writing →
      (Function.update s.pc i res.1 j).Writing := by
    intro hres j hj
    by_cases hji : j = i
    · rw [hji]
      exact hself hres
    · exact hother j hji hj
  rcases h with ⟨j, k, hne, hj, hk⟩ | ⟨hnone, j, hj⟩ | hsome
  · cases hcalls with
    | openTmp => exact Or.inl ⟨j, k, hne, hall trivial j hj, hall trivial k hk⟩
    | chunk => exact Or.inl ⟨j, k, hne, hall trivial j hj, hall trivial k hk⟩
    | replaced inode offset _ files' hle hrename =>
      -- the temporary name is gone, and the other writer still has to rename it
      refine Or.inr (Or.inl ⟨(Files.read_rename (tmpPath_ne writers.path) hrename).2.1, ?_⟩)
      by_cases hji : j = i
      · exact ⟨k, hother k (fun hki => hne (hji.trans hki.symm)) hk⟩
      · exact ⟨j, hother j hji hj⟩
    | missing => exact Or.inr (Or.inr ⟨i, Function.update_self _ _ _⟩)
    | ended _ _ hopen hwriting =>
      rw [← hpc, ← hfiles, Function.update_eq_self]
      exact Or.inl ⟨j, k, hne, hj, hk⟩
  · cases hcalls with
    | openTmp =>
      have hji : j ≠ i := by
        rintro rfl
        rw [hpc] at hj
        exact hj
      exact Or.inl ⟨j, i, hji, hother j hji hj, hself trivial⟩
    | chunk =>
      rw [hfiles] at hnone
      exact Or.inr (Or.inl ⟨hnone, j, hall trivial j hj⟩)
    | replaced inode offset _ files' hle hrename =>
      rw [hfiles] at hnone
      rw [Files.rename_eq_none_iff.mpr hnone] at hrename
      cases hrename
    | missing => exact Or.inr (Or.inr ⟨i, Function.update_self _ _ _⟩)
    | ended _ _ hopen hwriting =>
      rw [← hpc, ← hfiles, Function.update_eq_self]
      exact Or.inr (Or.inl ⟨hnone, j, hj⟩)
  · exact absurd hsome hraised

theorem overlap_run {schedule : List (WriteEvent ι)} (hcrash : ∀ i, .crash i ∉ schedule)
    (h : Overlap writers s ∨ ¬ Meets (step writers) OpensAlone s schedule) :
    Overlap writers (run (step writers) s schedule) := by
  -- no system call mends an overlap, so that it is enough that it comes about once
  induction schedule generalizing s with
  | nil => exact h.resolve_right (fun hnot => hnot trivial)
  | cons a schedule ih =>
    have hrest : ∀ i, .crash i ∉ schedule := fun i hi => hcrash i (List.mem_cons_of_mem a hi)
    refine ih hrest ?_
    by_cases halone : OpensAlone a s
    · rcases h with hoverlap | hnot
      · left
        cases a with
        | call i size => exact hoverlap.call size
        | crash i => exact absurd List.mem_cons_self (hcrash i)
      · exact Or.inr fun hm => hnot ⟨halone, hm⟩
    · exact Or.inl (overlap_of_not_opensAlone halone)

end Step

/-- **Writes that do not overlap are atomic.**  If no writer opens the temporary file while another
one is between its `open` and its `os.replace`, the target holds at every moment what it held at the
start or all of what one writer wrote, and no writer raises.  In a run without crashes in which
every writer that began has ended, this is also necessary for no writer to raise. -/
theorem writes_atomically [DecidableEq ι] (writers : Writers ι) (files : Files Str (List UInt8))
    (schedule : List (WriteEvent ι)) :
    (Meets (step writers) OpensAlone (start files) schedule → ∀ pre, pre <+: schedule →
      Complete writers files (run (step writers) (start files) pre) ∧
        ∀ i, (run (step writers) (start files) pre).pc i ≠ .raised) ∧
      ((∀ i, .crash i ∉ schedule) →
        (∀ i, ¬ ((run (step writers) (start files) schedule).pc i).Writing) →
        (Meets (step writers) OpensAlone (start files) schedule ↔
          ∀ i, (run (step writers) (start files) schedule).pc i ≠ .raised)) := by
  constructor
  · intro hm pre hpre
    have hinv := writeInv_run writers files (hm.of_prefix hpre)
    exact ⟨hinv.complete, hinv.quiet⟩
  · intro hcrash hended
    refine ⟨fun hm => (writeInv_run writers files hm).quiet, fun hquiet => ?_⟩
    by_contra hnot
    rcases overlap_run hcrash (Or.inr hnot) with ⟨i, -, -, hi, -⟩ | ⟨-, i, hi⟩ | ⟨i, hi⟩
    · exact hended i hi
    · exact hended i hi
    · exact hquiet i hi

/-! ### Two writers -/

/-- A directory in which `f` holds a zero. -/
def oldFile : Files Str (List UInt8) where
  inode n := if n = ['f'] then some 0 else none
  content _ := [0]
  next := 1
  lt_next h := by
    split_ifs at h
    · rw [← Option.some.inj h]
      exact Nat.one_pos
  unique h h' := by
    split_ifs at h h'
    · simp [*]

/-- One writer writes `[1, 1]`, the other one `[2, 2]`. -/
def twoWriters : Writers Bool where
  path := ['f']
  content i := if i then [1, 1] else [2, 2]

/-- Both open the temporary file, the first one writes and renames it, and the second one writes to
the file that is the target by now. -/
def bothOpen : List (WriteEvent Bool) :=
  [.call true 2, .call false 2, .call true 2, .call true 2, .call false 1]

/-- Two writes, one after the other; the second writer dies halfway. -/
theorem writes_atomically_oneByOne :
    Complete twoWriters oldFile (run (step twoWriters) (start oldFile)
      [.call true 2, .call true 1, .call true 1, .call true 2, .call false 2, .call false 1,
        .crash false]) :=
  ((writes_atomically twoWriters oldFile
    [.call true 2, .call true 1, .call true 1, .call true 2, .call false 2, .call false 1,
      .crash false]).1 (by decide +kernel) _ List.prefix_rfl).1

/-- Two overlapping writers leave half of each text. -/
theorem not_writes_atomically_bothOpen :
    ¬ ∀ (writers : Writers Bool) (files : Files Str (List UInt8))
      (schedule : List (WriteEvent Bool)),
      Complete writers files (run (step writers) (start files) schedule) ∧
        ∀ i, (run (step writers) (start files) schedule).pc i ≠ .raised := by
  intro hall
  have htorn : (run (step twoWriters) (start oldFile) bothOpen).shared.read twoWriters.path =
      some [2, 1] := by decide +kernel
  rcases (hall twoWriters oldFile bothOpen).1 with hstart | ⟨i, -, hcontent⟩
  · rw [htorn] at hstart
    exact absurd hstart (by decide)
  · rw [htorn] at hcontent
    revert i
    decide

end MarketplacePipeline.AtomicWrite
