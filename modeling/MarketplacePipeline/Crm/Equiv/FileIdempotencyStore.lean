import MarketplacePipeline.Crm.FileIdempotencyStore

/-!
# Stores that share a file

The specification is a map: a `put` that has renamed its file changes the map at its key, and
nothing else changes it.  The two locks make the instances refine it: what a call that holds a lock
has read stays what it has read (`Undisturbed`), so a call that writes the file back writes what it
has loaded with its own record in it (`PcOk`).
-/

namespace MarketplacePipeline.FileIdempotencyStore

open Schedule

variable {ι κ ρ : Type*}

/-! ### The specification -/

def StoreOp.isGet : StoreOp → Bool
  | .get _ => true
  | _ => false

/-- The record that a call puts under a key. -/
def StoreOp.putTo (key : Str) : StoreOp → Option IdempotencyRecord
  | .put key' record => if key = key' then some record else none
  | _ => none

/-- The map after a call. -/
def StoreOp.apply (op : StoreOp) (records : Records) : Records := fun key =>
  (op.putTo key).or (records key)

/-- What a call returns, from the map. -/
def StoreOp.answer (records : Records) : StoreOp → Option IdempotencyRecord
  | .get key => records key
  | _ => none

@[simp] theorem StoreOp.apply_get (key : Str) (records : Records) :
    (StoreOp.get key).apply records = records := rfl

@[simp] theorem StoreOp.apply_put (key : Str) (record : IdempotencyRecord) (records : Records) :
    (StoreOp.put key record).apply records = Function.update records key (some record) := by
  funext key'
  by_cases hkey : key' = key
  · simp [apply, putTo, hkey]
  · simp [apply, putTo, hkey]

@[simp] theorem StoreOp.apply_save (records : Records) : StoreOp.save.apply records = records :=
  rfl

/-- The file has an entry under the key. -/
def Holds (text : Option StoreText) (key : Str) : Prop :=
  match text with
  | none => False
  | some (.valid records) => records key ≠ none
  | some (.invalid keys) => key ∈ keys

instance : (text : Option StoreText) → (key : Str) → Decidable (Holds text key)
  | none, _ => .isFalse id
  | some (.valid records), key => inferInstanceAs (Decidable (records key ≠ none))
  | some (.invalid keys), key => inferInstanceAs (Decidable (key ∈ keys))

/-- The records of a text. -/
def recordsOf : Option StoreText → Records
  | some (.valid records) => records
  | _ => noRecords

/-- A call keeps the entries of the file that it does not put itself. -/
def KeepsOthers (op : StoreOp) (before after : Option StoreText) : Prop :=
  ∀ key, op.putTo key = none → Holds before key → Holds after key

/-- The record of the latest `put` of a key among these calls, or what was there before. -/
def latest (calls : StoreCalls ι κ ρ) (before : Records) (renamed : List ι) : Records := fun key =>
  (renamed.findSomeRev? fun i => (calls.op i).putTo key).or (before key)

theorem latest_concat (before : Records) (renamed : List ι) (i : ι) :
    latest calls before (renamed ++ [i]) =
      (calls.op i).apply (latest calls before renamed) := by
  funext key
  rw [latest, StoreOp.apply, latest, List.findSomeRev?_eq_findSome?_reverse,
    List.findSomeRev?_eq_findSome?_reverse, List.reverse_concat, List.findSome?_cons]
  cases (calls.op i).putTo key <;> simp

/-! ### Loading and writing back -/

/-- What `_load` makes of a text. -/
structure Loaded (text : Option StoreText) (warned : Bool) (records : Records) : Prop where
  records_eq : records = if warned then noRecords else recordsOf text
  valid : warned = false → ∀ keys, text ≠ some (.invalid keys)

theorem loaded_of_load {text : Option StoreText} {exc : Option PyError} {records : Records}
    {warned : Bool} (h : load true text exc = .ok (records, warned)) :
    Loaded text warned records := by
  unfold load at h
  rw [Bool.not_true, if_neg (by simp)] at h
  split at h
  · obtain ⟨rfl, rfl⟩ := Prod.mk.inj (Except.ok.inj h)
    exact ⟨rfl, by simp⟩
  · obtain ⟨rfl, rfl⟩ := Prod.mk.inj (Except.ok.inj h)
    exact ⟨rfl, by simp⟩
  · obtain ⟨rfl, rfl⟩ := Prod.mk.inj (Except.ok.inj h)
    exact ⟨rfl, by simp⟩
  · split_ifs at h
    obtain ⟨rfl, rfl⟩ := Prod.mk.inj (Except.ok.inj h)
    exact ⟨rfl, by simp⟩

theorem load_of_valid {text : Option StoreText} (h : ∀ keys, text ≠ some (.invalid keys)) :
    load true text none = .ok (recordsOf text, false) := by
  rcases text with _ | ⟨records⟩ | ⟨keys⟩
  · rfl
  · rfl
  · exact absurd rfl (h keys)

/-- Writing back what was loaded keeps the other entries, unless the load has failed and there are
some. -/
theorem keepsOthers_iff {text : Option StoreText} {warned : Bool} {records : Records}
    (h : Loaded text warned records) (op : StoreOp) :
    KeepsOthers op text (some (.valid (op.apply records))) ↔
      warned = false ∨ ∀ key, op.putTo key = none → ¬ Holds text key := by
  obtain ⟨rfl, hvalid⟩ := h
  cases warned with
  | false =>
    refine iff_of_true (fun key hkey hholds => ?_) (Or.inl rfl)
    show (op.putTo key).or (recordsOf text key) ≠ none
    rw [hkey, Option.none_or]
    rcases text with _ | ⟨records⟩ | ⟨keys⟩
    · exact hholds.elim
    · exact hholds
    · exact absurd rfl (hvalid rfl keys)
  | true =>
    rw [or_iff_right (by simp)]
    refine forall_congr' fun key => forall_congr' fun hkey => ?_
    have hgone : ¬ Holds (some (.valid (op.apply noRecords))) key := by
      show ¬ (op.putTo key).or none ≠ none
      simp [hkey]
    exact ⟨fun hkeeps hholds => hgone (hkeeps hholds), fun hnot hholds => absurd hholds hnot⟩

/-! ### The locks -/

section Calls

variable (calls : StoreCalls ι κ ρ)

/-- The call holds both locks. -/
structure Critical (w : StoreWorld ι κ) (i : ι) : Prop where
  thread : w.threadLock (calls.store i) = some i
  file : w.fileLock = some i
  enabled : calls.enabled (calls.store i) = true
  not_get : (calls.op i).isGet = false

/-- The call has in its snapshot what it writes to the file. -/
structure Prepared (w : StoreWorld ι κ) (i : ι) (warned : Bool) : Prop
    extends Critical calls w i where
  fresh : i ∉ w.renamed
  records : ∃ records, Loaded (w.files.read calls.path) warned records ∧
    w.snapshot (calls.store i) = (calls.op i).apply records

/-- What holds of a call, by where it stands. -/
def PcOk (w : StoreWorld ι κ) (i : ι) : StorePc → Prop
  | .threadLock => i ∉ w.renamed
  | .fileLock => i ∉ w.renamed ∧ w.threadLock (calls.store i) = some i ∧
      calls.enabled (calls.store i) = true ∧ (calls.op i).isGet = false
  | .reload => i ∉ w.renamed ∧ w.threadLock (calls.store i) = some i ∧
      ((calls.op i).isGet = false → Critical calls w i)
  | .loaded warned => i ∉ w.renamed ∧ w.threadLock (calls.store i) = some i ∧
      ((calls.op i).isGet = false → Critical calls w i ∧
        Loaded (w.files.read calls.path) warned (w.snapshot (calls.store i)))
  | .openTmp warned => Prepared calls w i warned
  | .writeTmp warned inode => Prepared calls w i warned ∧
      w.files.inode (tmpPath calls.path) = some inode
  | .replace warned => Prepared calls w i warned ∧
      w.files.read (tmpPath calls.path) = some (.valid (w.snapshot (calls.store i)))
  | .fileUnlock result => Critical calls w i ∧ (i ∈ w.renamed ↔ result.isOk = true)
  | .threadUnlock result => w.threadLock (calls.store i) = some i ∧
      ((calls.op i).isGet = false → (i ∈ w.renamed ↔ result.isOk = true))
  | .ended result => (calls.op i).isGet = false → calls.enabled (calls.store i) = true →
      (i ∈ w.renamed ↔ result.isOk = true)
  | .dead => True

/-- A step has left a call its locks, and what they protect. -/
structure Undisturbed (j : ι) (w w' : StoreWorld ι κ) : Prop where
  files : w.fileLock = some j → w'.files = w.files
  fileLock : w.fileLock = some j → w'.fileLock = some j
  snapshot : w.threadLock (calls.store j) = some j →
    w'.snapshot (calls.store j) = w.snapshot (calls.store j)
  threadLock : w.threadLock (calls.store j) = some j →
    w'.threadLock (calls.store j) = some j
  renamed : j ∈ w'.renamed ↔ j ∈ w.renamed

variable {calls} {w w' : StoreWorld ι κ} {i j : ι}

theorem Critical.mono (h : Critical calls w j) (hu : Undisturbed calls j w w') :
    Critical calls w' j :=
  ⟨hu.threadLock h.thread, hu.fileLock h.file, h.enabled, h.not_get⟩

theorem Prepared.mono {warned : Bool} (h : Prepared calls w j warned)
    (hu : Undisturbed calls j w w') : Prepared calls w' j warned := by
  refine ⟨h.toCritical.mono hu, fun hmem => h.fresh (hu.renamed.mp hmem), ?_⟩
  rw [hu.files h.file, hu.snapshot h.thread]
  exact h.records

/-- What holds of a call still does after a step that has left it its locks. -/
theorem PcOk.mono {pc : StorePc} (h : PcOk calls w j pc) (hu : Undisturbed calls j w w') :
    PcOk calls w' j pc := by
  cases pc with
  | threadLock => exact fun hmem => h (hu.renamed.mp hmem)
  | fileLock => exact ⟨fun hmem => h.1 (hu.renamed.mp hmem), hu.threadLock h.2.1, h.2.2⟩
  | reload =>
    refine ⟨fun hmem => h.1 (hu.renamed.mp hmem), hu.threadLock h.2.1, fun hop => ?_⟩
    exact (h.2.2 hop).mono hu
  | loaded warned =>
    refine ⟨fun hmem => h.1 (hu.renamed.mp hmem), hu.threadLock h.2.1, fun hop => ?_⟩
    obtain ⟨hcritical, hloaded⟩ := h.2.2 hop
    rw [hu.files hcritical.file, hu.snapshot hcritical.thread]
    exact ⟨hcritical.mono hu, hloaded⟩
  | openTmp warned => exact Prepared.mono h hu
  | writeTmp warned inode =>
    rw [PcOk, hu.files h.1.file]
    exact ⟨h.1.mono hu, h.2⟩
  | replace warned =>
    rw [PcOk, hu.files h.1.file, hu.snapshot h.1.thread]
    exact ⟨h.1.mono hu, h.2⟩
  | fileUnlock result => exact ⟨h.1.mono hu, hu.renamed.trans h.2⟩
  | threadUnlock result => exact ⟨hu.threadLock h.1, fun hop => hu.renamed.trans (h.2 hop)⟩
  | ended result => exact fun hop hen => hu.renamed.trans (h hop hen)
  | dead => trivial

/-! ### One step -/

theorem Undisturbed.refl (w : StoreWorld ι κ) (j : ι) : Undisturbed calls j w w :=
  ⟨fun _ => rfl, id, fun _ => rfl, id, Iff.rfl⟩

theorem undisturbed_fileLock (h : w.fileLock ≠ some j) (holder : Option ι) :
    Undisturbed calls j w { w with fileLock := holder } :=
  ⟨fun _ => rfl, fun hj => absurd hj h, fun _ => rfl, id, Iff.rfl⟩

theorem undisturbed_files (h : w.fileLock ≠ some j) (files : Files Str StoreText) :
    Undisturbed calls j w { w with files } :=
  ⟨fun hj => absurd hj h, id, fun _ => rfl, id, Iff.rfl⟩

/-- The load of the call has failed, and it writes its snapshot nevertheless. -/
def StorePc.warned : StorePc → Bool
  | .loaded warned | .openTmp warned | .writeTmp warned _ | .replace warned => warned
  | _ => false

theorem PcOk.critical_of_warned {pc : StorePc} (h : PcOk calls w i pc)
    (hget : (calls.op i).isGet = false) (hwarned : pc.warned = true) : Critical calls w i := by
  cases pc with
  | loaded warned => exact (h.2.2 hget).1
  | openTmp warned => exact Prepared.toCritical h
  | writeTmp warned inode => exact h.1.toCritical
  | replace warned => exact h.1.toCritical
  | _ => cases hwarned

theorem undisturbed_dieStep [DecidableEq ρ] {s : StoreState ι κ} {process : ρ}
    (h : calls.process (calls.store j) ≠ process) :
    Undisturbed calls j s.shared (dieStep calls process s).shared := by
  refine ⟨fun _ => rfl, fun hj => ?_, fun _ => rfl, id, Iff.rfl⟩
  show s.shared.fileLock.filter _ = some j
  rw [hj, Option.filter_some_pos (by simpa using h)]

/-- What holds of every call. -/
def StoreInv (calls : StoreCalls ι κ ρ) (s : StoreState ι κ) : Prop :=
  ∀ i, PcOk calls s.shared i (s.pc i)

variable (calls) in
theorem storeInv_start (files : Files Str StoreText) (snapshot : κ → Records) :
    StoreInv calls (start files snapshot) := fun _ => List.not_mem_nil

variable [DecidableEq κ]

theorem undisturbed_threadLock {k : κ} (h : w.threadLock k ≠ some j) (holder : Option ι) :
    Undisturbed calls j w { w with threadLock := Function.update w.threadLock k holder } := by
  refine ⟨fun _ => rfl, id, fun _ => rfl, fun hj => ?_, Iff.rfl⟩
  show Function.update w.threadLock k holder (calls.store j) = some j
  rw [Function.update_of_ne (fun heq => h (by rw [← heq, hj]))]
  exact hj

theorem undisturbed_snapshot {k : κ} (h : w.threadLock k ≠ some j) (records : Records) :
    Undisturbed calls j w { w with snapshot := Function.update w.snapshot k records } := by
  refine ⟨fun _ => rfl, id, fun hj => ?_, id, Iff.rfl⟩
  exact Function.update_of_ne (fun heq => h (by rw [← heq, hj])) _ _

theorem StoreOp.isGet_eq_false {op : StoreOp} (h : ∀ key, op = .get key → False) :
    op.isGet = false := by
  cases op with
  | get key => exact (h key rfl).elim
  | put key record => rfl
  | save => rfl

variable (calls) in
/-- What a step of a call can do. -/
inductive Moves (i : ι) (exc : Option PyError) (w : StoreWorld ι κ) :
    StorePc → StorePc × StoreWorld ι κ → Prop
  | waitThread : Moves i exc w .threadLock (.threadLock, w)
  | disabled (hget : (calls.op i).isGet = false)
      (henabled : calls.enabled (calls.store i) = false) :
      Moves i exc w .threadLock (.ended (.ok none), w)
  | lockThread (pc : StorePc) (hfree : w.threadLock (calls.store i) = none)
      (hpc : pc = .reload ∧ (calls.op i).isGet = true ∨ pc = .fileLock ∧
        (calls.op i).isGet = false ∧ calls.enabled (calls.store i) = true) :
      Moves i exc w .threadLock
        (pc, { w with threadLock := Function.update w.threadLock (calls.store i) (some i) })
  | waitFile : Moves i exc w .fileLock (.fileLock, w)
  | lockFile (hfree : w.fileLock = none) :
      Moves i exc w .fileLock (.reload, { w with fileLock := some i })
  | load (records : Records) (warned : Bool)
      (hload : load (calls.enabled (calls.store i)) (w.files.read calls.path) exc =
        .ok (records, warned)) :
      Moves i exc w .reload (.loaded warned,
        { w with snapshot := Function.update w.snapshot (calls.store i) records })
  | loadRaisedGet (exc' : PyError) (hget : (calls.op i).isGet = true)
      (hload : load (calls.enabled (calls.store i)) (w.files.read calls.path) exc =
        .error exc') :
      Moves i exc w .reload (.threadUnlock (.error exc'), w)
  | loadRaised (exc' : PyError) (hget : (calls.op i).isGet = false) :
      Moves i exc w .reload (.fileUnlock (.error exc'), w)
  | lookUp (warned : Bool) (key : Str) (hop : calls.op i = .get key) :
      Moves i exc w (.loaded warned)
        (.threadUnlock (.ok (w.snapshot (calls.store i) key)), w)
  | record (warned : Bool) (hget : (calls.op i).isGet = false) :
      Moves i exc w (.loaded warned) (.openTmp warned,
        { w with
          snapshot := Function.update w.snapshot (calls.store i)
            ((calls.op i).apply (w.snapshot (calls.store i))) })
  | openTmp (warned : Bool) :
      Moves i exc w (.openTmp warned)
        (.writeTmp warned (w.files.openTruncate (.invalid []) (tmpPath calls.path)).1,
          { w with files := (w.files.openTruncate (.invalid []) (tmpPath calls.path)).2 })
  | openRaised (warned : Bool) (exc' : PyError) :
      Moves i exc w (.openTmp warned) (.fileUnlock (.error exc'), w)
  | writeTmp (warned : Bool) (inode : ℕ) :
      Moves i exc w (.writeTmp warned inode) (.replace warned,
        { w with files := w.files.write inode (.valid (w.snapshot (calls.store i))) })
  | writeRaised (warned : Bool) (inode : ℕ) (exc' : PyError) :
      Moves i exc w (.writeTmp warned inode)
        (.fileUnlock (.error exc'), { w with files := w.files.write inode (.invalid []) })
  | replace (warned : Bool) (files : Files Str StoreText)
      (hrename : w.files.rename (tmpPath calls.path) calls.path = some files) :
      Moves i exc w (.replace warned)
        (.fileUnlock (.ok none), { w with files := files, renamed := w.renamed ++ [i] })
  | replaceRaised (warned : Bool) (exc' : PyError) :
      Moves i exc w (.replace warned) (.fileUnlock (.error exc'), w)
  | unlockFile (result : Except PyError (Option IdempotencyRecord)) :
      Moves i exc w (.fileUnlock result) (.threadUnlock result, { w with fileLock := none })
  | unlockThread (result : Except PyError (Option IdempotencyRecord)) :
      Moves i exc w (.threadUnlock result) (.ended result,
        { w with threadLock := Function.update w.threadLock (calls.store i) none })
  | ended (result : Except PyError (Option IdempotencyRecord)) :
      Moves i exc w (.ended result) (.ended result, w)
  | dead : Moves i exc w .dead (.dead, w)

variable (calls) in
theorem callStep_moves (i : ι) (exc : Option PyError) (w : StoreWorld ι κ) (pc : StorePc) :
    Moves calls i exc w pc (callStep calls i exc pc w) := by
  cases pc with
  | threadLock =>
    unfold callStep
    dsimp only
    split
    · rename_i key hop hfree
      exact .lockThread _ hfree (Or.inl ⟨rfl, by rw [hop]; rfl⟩)
    · exact .waitThread
    · rename_i hdisabled hnone hsome
      refine .disabled (StoreOp.isGet_eq_false fun key hop => ?_) hdisabled
      cases hlock : w.threadLock (calls.store i) with
      | none => exact hnone key hop hlock
      | some holder => exact hsome key holder hop hlock
    · rename_i henabled hfree hop
      exact .lockThread _ hfree (Or.inr ⟨rfl, StoreOp.isGet_eq_false hop, henabled⟩)
    · exact .waitThread
  | fileLock =>
    unfold callStep
    dsimp only
    split
    · exact .lockFile ‹_›
    · exact .waitFile
  | reload =>
    unfold callStep
    dsimp only
    split
    · exact .load _ _ ‹_›
    · rename_i hop
      exact .loadRaisedGet _ (by rw [hop]; rfl) ‹_›
    · rename_i hop
      exact .loadRaised _ (StoreOp.isGet_eq_false hop)
  | loaded warned =>
    unfold callStep
    dsimp only
    split
    · exact .lookUp _ _ ‹_›
    · rename_i key record hop
      rw [← StoreOp.apply_put, ← hop]
      exact .record _ (by rw [hop]; rfl)
    · rename_i hop
      have hmoves : Moves calls i exc w (.loaded warned) _ :=
        Moves.record warned (by rw [hop]; rfl)
      rw [hop, StoreOp.apply_save, Function.update_eq_self] at hmoves
      exact hmoves
  | openTmp warned =>
    unfold callStep
    dsimp only
    split
    · exact .openRaised _ _
    · exact .openTmp _
  | writeTmp warned inode =>
    unfold callStep
    dsimp only
    split
    · exact .writeRaised _ _ _
    · exact .writeTmp _ _
  | replace warned =>
    unfold callStep
    dsimp only
    split
    · exact .replaceRaised _ _
    · exact .replaceRaised _ _
    · exact .replace _ _ ‹_›
  | fileUnlock result => exact .unlockFile result
  | threadUnlock result => exact .unlockThread result
  | ended result => exact .ended result
  | dead => exact .dead

/-- The step of a call does not disturb the others. -/
theorem Moves.undisturbed {exc : Option PyError} {pc : StorePc}
    {next : StorePc × StoreWorld ι κ} (hmoves : Moves calls i exc w pc next)
    (h : PcOk calls w i pc) (hne : j ≠ i) : Undisturbed calls j w next.2 := by
  have hother : ∀ {holder : Option ι}, holder = some i → holder ≠ some j := by
    rintro _ rfl hj
    exact hne (Option.some.inj hj).symm
  have hfree : ∀ {holder : Option ι}, holder = none → holder ≠ some j := by
    rintro _ rfl hj
    cases hj
  cases hmoves with
  | lockThread _ hnone => exact undisturbed_threadLock (hfree hnone) _
  | lockFile hnone => exact undisturbed_fileLock (hfree hnone) _
  | load => exact undisturbed_snapshot (hother h.2.1) _
  | record => exact undisturbed_snapshot (hother h.2.1) _
  | openTmp => exact undisturbed_files (hother (Prepared.toCritical h).file) _
  | writeTmp => exact undisturbed_files (hother h.1.file) _
  | writeRaised => exact undisturbed_files (hother h.1.file) _
  | replace =>
    exact ⟨fun hj => absurd hj (hother h.1.file), id, fun _ => rfl, id, by simp [hne]⟩
  | unlockFile => exact undisturbed_fileLock (hother h.1.file) _
  | unlockThread => exact undisturbed_threadLock (hother h.1) _
  | _ => exact .refl w j

/-- The step of a call keeps what holds of it. -/
theorem Moves.pcOk {exc : Option PyError} {pc : StorePc} {next : StorePc × StoreWorld ι κ}
    (hmoves : Moves calls i exc w pc next) (h : PcOk calls w i pc) :
    PcOk calls next.2 i next.1 := by
  cases hmoves with
  | waitThread => exact h
  | disabled hget hdisabled =>
    intro _ henabled
    rw [hdisabled] at henabled
    cases henabled
  | lockThread pc _ hpc =>
    rcases hpc with ⟨rfl, hget⟩ | ⟨rfl, hget, henabled⟩
    · refine ⟨h, Function.update_self _ _ _, fun hnot => ?_⟩
      rw [hget] at hnot
      cases hnot
    · exact ⟨h, Function.update_self _ _ _, henabled, hget⟩
  | waitFile => exact h
  | lockFile =>
    obtain ⟨hfresh, hthread, henabled, hget⟩ := h
    exact ⟨hfresh, hthread, fun _ => ⟨hthread, rfl, henabled, hget⟩⟩
  | load records warned hload =>
    obtain ⟨hfresh, hthread, hcritical⟩ := h
    refine ⟨hfresh, hthread, fun hget => ?_⟩
    have hc := hcritical hget
    rw [hc.enabled] at hload
    refine ⟨⟨hc.thread, hc.file, hc.enabled, hc.not_get⟩, ?_⟩
    dsimp only
    rw [Function.update_self]
    exact loaded_of_load hload
  | loadRaisedGet _ hget =>
    refine ⟨h.2.1, fun hnot => ?_⟩
    rw [hget] at hnot
    cases hnot
  | loadRaised _ hget => exact ⟨h.2.2 hget, iff_of_false h.1 Bool.false_ne_true⟩
  | lookUp _ key hop =>
    refine ⟨h.2.1, fun hnot => ?_⟩
    rw [hop] at hnot
    cases hnot
  | record warned hget =>
    obtain ⟨hfresh, hthread, hcritical⟩ := h
    obtain ⟨hc, hloaded⟩ := hcritical hget
    exact ⟨⟨hc.thread, hc.file, hc.enabled, hc.not_get⟩, hfresh, _, hloaded,
      Function.update_self _ _ _⟩
  | openTmp warned =>
    have hp : Prepared calls w i warned := h
    refine ⟨⟨⟨hp.thread, hp.file, hp.enabled, hp.not_get⟩, hp.fresh, ?_⟩,
      Files.inode_openTruncate_self _ _ _⟩
    rw [Files.read_openTruncate_of_ne _ _ (tmpPath_ne calls.path).symm]
    exact hp.records
  | openRaised warned =>
    have hp : Prepared calls w i warned := h
    exact ⟨hp.toCritical, iff_of_false hp.fresh Bool.false_ne_true⟩
  | writeTmp warned inode =>
    obtain ⟨hp, hinode⟩ := h
    refine ⟨⟨⟨hp.thread, hp.file, hp.enabled, hp.not_get⟩, hp.fresh, ?_⟩, ?_⟩
    · rw [Files.read_write_of_ne _ hinode (tmpPath_ne calls.path).symm]
      exact hp.records
    · rw [Files.read, Files.inode_write, hinode, Option.map_some, Files.content_write_self]
  | writeRaised =>
    obtain ⟨hp, -⟩ := h
    exact ⟨⟨hp.thread, hp.file, hp.enabled, hp.not_get⟩, iff_of_false hp.fresh Bool.false_ne_true⟩
  | replace =>
    obtain ⟨hp, -⟩ := h
    exact ⟨⟨hp.thread, hp.file, hp.enabled, hp.not_get⟩, iff_of_true (by simp) rfl⟩
  | replaceRaised => exact ⟨h.1.toCritical, iff_of_false h.1.fresh Bool.false_ne_true⟩
  | unlockFile => exact ⟨h.1.thread, fun _ => h.2⟩
  | unlockThread => exact fun hget _ => h.2 hget
  | ended => exact h
  | dead => exact h

/-- A step changes the text of the file only if it is the `os.replace` of a call, which puts the
snapshot of its store there. -/
theorem Moves.text {exc : Option PyError} {pc : StorePc} {next : StorePc × StoreWorld ι κ}
    (hmoves : Moves calls i exc w pc next) (h : PcOk calls w i pc) :
    (next.2.files.read calls.path = w.files.read calls.path ∧ next.2.renamed = w.renamed ∧
        ∀ warned, pc = .replace warned → ∃ exc', next.1 = .fileUnlock (.error exc')) ∨
      ∃ warned, pc = .replace warned ∧ next.1 = .fileUnlock (.ok none) ∧
        next.2.files.read calls.path = some (.valid (w.snapshot (calls.store i))) ∧
        next.2.renamed = w.renamed ++ [i] := by
  have hne := (tmpPath_ne calls.path).symm
  cases hmoves with
  | openTmp => exact Or.inl ⟨Files.read_openTruncate_of_ne _ _ hne, rfl, by simp⟩
  | writeTmp => exact Or.inl ⟨Files.read_write_of_ne _ h.2 hne, rfl, by simp⟩
  | writeRaised => exact Or.inl ⟨Files.read_write_of_ne _ h.2 hne, rfl, by simp⟩
  | replace warned files hrename =>
    refine Or.inr ⟨warned, rfl, rfl, ?_, rfl⟩
    rw [(Files.read_rename hne.symm hrename).1]
    exact h.2
  | lockThread _ _ hpc => exact Or.inl ⟨rfl, rfl, by simp⟩
  | _ => exact Or.inl ⟨rfl, rfl, by simp⟩

/-- The step lemma. -/
theorem StoreInv.step [DecidableEq ι] [DecidableEq ρ] {s : StoreState ι κ}
    (h : StoreInv calls s) (a : StoreEvent ι ρ) : StoreInv calls (step calls a s) := by
  intro j
  cases a with
  | call i exc =>
    by_cases hj : j = i
    · subst hj
      rw [FileIdempotencyStore.step, pc_stepParty_self]
      exact (callStep_moves calls j exc _ _).pcOk (h j)
    · rw [FileIdempotencyStore.step, pc_stepParty_of_ne hj]
      exact (h j).mono ((callStep_moves calls i exc _ _).undisturbed (h i) hj)
  | die process =>
    show PcOk calls (dieStep calls process s).shared j
      (if calls.process (calls.store j) = process then (s.pc j).die else s.pc j)
    split_ifs with hprocess
    · have hj := h j
      cases hpc : s.pc j with
      | ended result =>
        rw [hpc] at hj
        exact hj
      | _ => trivial
    · exact (h j).mono (undisturbed_dieStep hprocess)

theorem Moves.warned {exc : Option PyError} {pc : StorePc} {next : StorePc × StoreWorld ι κ}
    (hmoves : Moves calls i exc w pc next) (hwarned : next.1.warned = true) :
    pc.warned = true ∨ pc = .reload ∧ ∃ records, FileIdempotencyStore.load
      (calls.enabled (calls.store i)) (w.files.read calls.path) exc = .ok (records, true) := by
  cases hmoves with
  | lockThread _ _ hpc =>
    rcases hpc with ⟨rfl, -⟩ | ⟨rfl, -⟩
    · cases hwarned
    · cases hwarned
  | load records warned hload =>
    obtain rfl : warned = true := hwarned
    exact Or.inr ⟨rfl, records, hload⟩
  | record | openTmp | writeTmp => exact Or.inl hwarned
  | _ => cases hwarned

end Calls

section Runs

variable [DecidableEq ι] [DecidableEq κ] [DecidableEq ρ] (calls : StoreCalls ι κ ρ)

/-- The text of the file. -/
def text (s : StoreState ι κ) : Option StoreText := s.shared.files.read calls.path

variable {calls} {s : StoreState ι κ}

theorem storeInv_run (h : StoreInv calls s) (schedule : List (StoreEvent ι ρ)) :
    StoreInv calls (run (step calls) s schedule) := by
  have hstep : ∀ (a : StoreEvent ι ρ) (s : StoreState ι κ), StoreInv calls s →
      StoreInv calls (step calls a s) := fun a s h => h.step a
  exact invariant_run hstep h schedule

end Runs

end MarketplacePipeline.FileIdempotencyStore
