import MarketplacePipeline.Crm.Equiv.FileIdempotencyStore
import MarketplacePipeline.Crm.FileStoreMethods

/-!
# The stores as one map

If every read of the file succeeds, the file always holds what the calls have put (`MapInv`), and a
`get` returns what it held when it was read (`GetOk`): the instances act as one map, in any
interleaving, also when writes fail and processes die (`acts_as_map`).  A call that runs alone ends
(`run_alone`).
-/

namespace MarketplacePipeline.FileIdempotencyStore

open Schedule

variable {ι κ ρ : Type*}

/-! ### What a `get` has read -/

section Calls

variable {calls : StoreCalls ι κ ρ} {w w' : StoreWorld ι κ} {i : ι}

variable (calls) in
/-- A `get` looks up, and returns, what it has read. -/
def GetOk (seen : Records → Prop) (w : StoreWorld ι κ) (i : ι) (key : Str) : StorePc → Prop
  | .loaded _ => seen (w.snapshot (calls.store i))
  | .threadUnlock result | .ended result => ∃ records, seen records ∧ result = .ok (records key)
  | _ => True

theorem GetOk.mono {seen seen' : Records → Prop} {key : Str} {pc : StorePc}
    (h : GetOk calls seen w i key pc) (hok : PcOk calls w i pc)
    (hseen : ∀ records, seen records → seen' records) (hu : Undisturbed calls i w w') :
    GetOk calls seen' w' i key pc := by
  have hresult : ∀ result : Except PyError (Option IdempotencyRecord),
      (∃ records, seen records ∧ result = .ok (records key)) →
      ∃ records, seen' records ∧ result = .ok (records key) := by
    rintro result ⟨records, hsaw, heq⟩
    exact ⟨records, hseen records hsaw, heq⟩
  cases pc with
  | loaded warned =>
    rw [GetOk, hu.snapshot hok.2.1]
    exact hseen _ h
  | threadUnlock result => exact hresult result h
  | ended result => exact hresult result h
  | _ => trivial

variable [DecidableEq κ]

theorem Moves.getOk {seen : Records → Prop} {key : Str}
    {exc : Option PyError} {pc : StorePc} {next : StorePc × StoreWorld ι κ}
    (hmoves : Moves calls i exc w pc next) (hop : calls.op i = .get key)
    (hok : PcOk calls w i pc) (h : GetOk calls seen w i key pc)
    (hload : pc = .reload → ∃ records warned, FileIdempotencyStore.load
      (calls.enabled (calls.store i)) (w.files.read calls.path) exc = .ok (records, warned) ∧
      seen records) : GetOk calls seen next.2 i key next.1 := by
  have hget : (calls.op i).isGet = true := by rw [hop]; rfl
  cases hmoves with
  | disabled hnot =>
    rw [hget] at hnot
    cases hnot
  | lockThread _ _ hpc => rcases hpc with ⟨rfl, -⟩ | ⟨rfl, -⟩ <;> trivial
  | load records warned heq =>
    obtain ⟨records', warned', heq', hseen⟩ := hload rfl
    obtain ⟨rfl, -⟩ := Prod.mk.inj (Except.ok.inj (heq.symm.trans heq'))
    show seen (Function.update w.snapshot (calls.store i) records (calls.store i))
    rw [Function.update_self]
    exact hseen
  | loadRaisedGet exc' _ heq =>
    obtain ⟨records, warned, heq', -⟩ := hload rfl
    cases heq.symm.trans heq'
  | lookUp warned key' hop' =>
    obtain rfl := StoreOp.get.inj (hop.symm.trans hop')
    exact ⟨_, h, rfl⟩
  | unlockFile =>
    have hnot := hok.1.not_get
    rw [hget] at hnot
    cases hnot
  | unlockThread => exact h
  | ended => exact h
  | _ => trivial

end Calls

section Runs

variable [DecidableEq ι] [DecidableEq κ] [DecidableEq ρ] {calls : StoreCalls ι κ ρ}
  {s : StoreState ι κ}

/-! ### Files that can be read -/

/-- No read of the file fails. -/
def ReadsSucceed : StoreEvent ι ρ → StoreState ι κ → Prop
  | .call i exc, s => s.pc i = .reload → exc = none
  | .die _, _ => True

/-- The file validates, with the records that the calls have put, and no load has failed. -/
structure MapInv (calls : StoreCalls ι κ ρ) (before : Records) (s : StoreState ι κ) : Prop where
  valid : ∀ keys, text calls s ≠ some (.invalid keys)
  records : recordsOf (text calls s) = latest calls before s.shared.renamed
  quiet : ∀ i, (s.pc i).warned = false

/-- A load of a valid file that can be read does not fail. -/
theorem MapInv.quiet_step {before : Records} {i : ι} {exc : Option PyError}
    (h : MapInv calls before s) (henabled : ∀ k, calls.enabled k = true)
    (hreads : ReadsSucceed (.call i exc : StoreEvent ι ρ) s) (j : ι) :
    ((step calls (.call i exc) s).pc j).warned = false := by
  have hmoves := callStep_moves calls i exc s.shared (s.pc i)
  by_cases hj : j = i
  · subst hj
    rw [step, pc_stepParty_self]
    by_contra hwarned
    rcases hmoves.warned (eq_true_of_ne_false hwarned) with hold | ⟨hpc, r, hload⟩
    · rw [h.quiet j] at hold
      cases hold
    · have hvalid := load_of_valid h.valid
      rw [hreads hpc, henabled] at hload
      rw [text, hload] at hvalid
      cases hvalid
  · rw [step, pc_stepParty_of_ne hj]
    exact h.quiet j

/-- The step lemma. -/
theorem MapInv.step {before : Records} {a : StoreEvent ι ρ} (h : MapInv calls before s)
    (hinv : StoreInv calls s) (henabled : ∀ k, calls.enabled k = true)
    (hreads : ReadsSucceed a s) : MapInv calls before (step calls a s) := by
  cases a with
  | call i exc =>
    have hmoves := callStep_moves calls i exc s.shared (s.pc i)
    have hquiet := h.quiet_step henabled hreads
    have htext : text calls (FileIdempotencyStore.step calls (.call i exc) s) =
        (callStep calls i exc (s.pc i) s.shared).2.files.read calls.path := rfl
    have hrenamed : (FileIdempotencyStore.step calls (.call i exc) s).shared.renamed =
        (callStep calls i exc (s.pc i) s.shared).2.renamed := rfl
    rcases hmoves.text (hinv i) with ⟨hread, hlog, -⟩ | ⟨warned, hpc, -, hread, hlog⟩
    · refine ⟨?_, ?_, hquiet⟩
      · rw [htext, hread]
        exact h.valid
      · rw [htext, hrenamed, hread, hlog]
        exact h.records
    · have hprepared := hinv i
      rw [hpc] at hprepared
      obtain ⟨records, hloaded, hsnapshot⟩ := hprepared.1.records
      have hwarned : warned = false := by
        have hq := h.quiet i
        rw [hpc] at hq
        exact hq
      refine ⟨?_, ?_, hquiet⟩
      · rw [htext, hread]
        simp
      · rw [htext, hrenamed, hread, hlog, latest_concat, ← h.records, hsnapshot,
          hloaded.records_eq, hwarned]
        rfl
  | die process =>
    refine ⟨h.valid, h.records, fun i => ?_⟩
    show (if calls.process (calls.store i) = process then (s.pc i).die else s.pc i).warned = false
    split_ifs
    · cases s.pc i <;> rfl
    · exact h.quiet i

/-- A run whose reads succeed keeps the file valid. -/
theorem mapInv_run {before : Records} {schedule : List (StoreEvent ι ρ)}
    (hinv : StoreInv calls s) (h : MapInv calls before s)
    (henabled : ∀ k, calls.enabled k = true)
    (hreads : Meets (step calls) ReadsSucceed s schedule) :
    MapInv calls before (run (step calls) s schedule) := by
  have hstep : ∀ (a : StoreEvent ι ρ) (s : StoreState ι κ),
      StoreInv calls s ∧ MapInv calls before s → ReadsSucceed a s →
      StoreInv calls (step calls a s) ∧ MapInv calls before (step calls a s) :=
    fun a s h hread => ⟨h.1.step a, h.2.step h.1 henabled hread⟩
  exact (invariant_run_of_meets hstep ⟨hinv, h⟩ hreads).2

/-- At some step of the run, the call read the file, and these were the records that the calls had
put by then. -/
def ReadAt (calls : StoreCalls ι κ ρ) (before : Records) (s : StoreState ι κ)
    (schedule : List (StoreEvent ι ρ)) (i : ι) (records : Records) : Prop :=
  ∃ pre exc post, schedule = pre ++ .call i exc :: post ∧
    (run (step calls) s pre).pc i = .reload ∧
    records = latest calls before (run (step calls) s pre).shared.renamed

theorem ReadAt.concat {before : Records} {schedule : List (StoreEvent ι ρ)} {i : ι}
    {records : Records} (h : ReadAt calls before s schedule i records) (a : StoreEvent ι ρ) :
    ReadAt calls before s (schedule ++ [a]) i records := by
  obtain ⟨pre, exc, post, rfl, hpc, hrecords⟩ := h
  exact ⟨pre, exc, post ++ [a], by simp, hpc, hrecords⟩

theorem getOk_run {before : Records} {schedule : List (StoreEvent ι ρ)} (hinv : StoreInv calls s)
    (hmap : MapInv calls before s) (henabled : ∀ k, calls.enabled k = true)
    (hreads : Meets (step calls) ReadsSucceed s schedule) {i : ι} {key : Str}
    (hop : calls.op i = .get key) (hstart : s.pc i = .threadLock) :
    GetOk calls (ReadAt calls before s schedule i) (run (step calls) s schedule).shared i key
      ((run (step calls) s schedule).pc i) := by
  -- from the last event, since what a `get` may return depends on all events before it
  induction schedule using List.reverseRecOn with
  | nil =>
    rw [run_nil, hstart]
    trivial
  | append_singleton schedule a ih =>
    have hpre : schedule <+: schedule ++ [a] := List.prefix_append _ _
    have hok := storeInv_run hinv schedule
    have hvalid := mapInv_run hinv hmap henabled (hreads.of_prefix hpre)
    have hread := (meets_iff.mp hreads) schedule a [] rfl
    have hgetOk := ih (hreads.of_prefix hpre)
    rw [run_append, run_cons, run_nil]
    cases a with
    | call j exc =>
      by_cases hj : i = j
      · subst hj
        rw [step, pc_stepParty_self]
        have hmono := hgetOk.mono (hok i) (fun r h => ReadAt.concat h (.call i exc))
          (Undisturbed.refl _ i)
        refine (callStep_moves calls i exc _ _).getOk hop (hok i) hmono ?_
        intro hpc
        have hload := load_of_valid hvalid.valid
        obtain rfl := hread hpc
        rw [henabled]
        exact ⟨_, _, hload, schedule, none, [], rfl, hpc, hvalid.records⟩
      · rw [step, pc_stepParty_of_ne hj]
        exact hgetOk.mono (hok i) (fun r h => ReadAt.concat h (.call j exc))
          ((callStep_moves calls j exc _ _).undisturbed (hok j) hj)
    | die process =>
      show GetOk calls _ (dieStep calls process _).shared i key
        (if calls.process (calls.store i) = process then _ else _)
      split_ifs with hprocess
      · have hmono := hgetOk.mono (hok i) (fun r h => ReadAt.concat h (.die process))
          (Undisturbed.refl _ i)
        cases hpc : (run (step calls) s schedule).pc i with
        | ended result =>
          rw [hpc] at hmono
          exact hmono
        | _ => trivial
      · exact hgetOk.mono (hok i) (fun r h => ReadAt.concat h (.die process))
          (undisturbed_dieStep hprocess)

/-- A step takes nothing out of the log. -/
theorem renamed_step (hinv : StoreInv calls s) (a : StoreEvent ι ρ) :
    s.shared.renamed <+: (step calls a s).shared.renamed := by
  cases a with
  | call i exc =>
    show _ <+: (callStep calls i exc (s.pc i) s.shared).2.renamed
    rcases (callStep_moves calls i exc s.shared (s.pc i)).text (hinv i) with
      ⟨-, hlog, -⟩ | ⟨_, -, -, -, hlog⟩
    · rw [hlog]
    · rw [hlog]
      exact List.prefix_append _ _
  | die process => exact List.prefix_rfl

theorem renamed_run (hinv : StoreInv calls s) (schedule : List (StoreEvent ι ρ)) :
    s.shared.renamed <+: (run (step calls) s schedule).shared.renamed := by
  induction schedule generalizing s with
  | nil => exact List.prefix_rfl
  | cons a schedule ih => exact (renamed_step hinv a).trans (ih (hinv.step a))

/-! ### A call that runs alone -/

/-- The temporary file is there when it is renamed. -/
theorem rename_written (path : Str) (content : StoreText) (files : Files Str StoreText) :
    ((files.openTruncate (.invalid []) (tmpPath path)).2.write
        (files.openTruncate (.invalid []) (tmpPath path)).1 content).rename (tmpPath path) path =
      some (atomicWriteText path content files) := by
  unfold atomicWriteText
  dsimp only
  cases hrename : ((files.openTruncate (.invalid []) (tmpPath path)).2.write
      (files.openTruncate (.invalid []) (tmpPath path)).1 content).rename (tmpPath path) path with
  | none =>
    rw [Files.rename_eq_none_iff, Files.inode_write, Files.inode_openTruncate_self] at hrename
    cases hrename
  | some files' => rfl

theorem exists_load (text : Option StoreText) :
    ∃ warned, load true text none = .ok (recordsOf text, warned) := by
  cases text with
  | none => exact ⟨_, rfl⟩
  | some text => cases text <;> exact ⟨_, rfl⟩

/-- A call that runs alone, while its locks are free, ends after nine steps: it returns its answer
from the records of the file, and writes back what it makes of them. -/
theorem run_alone {i : ι} (henabled : calls.enabled (calls.store i) = true)
    (hpc : s.pc i = .threadLock) (hthread : s.shared.threadLock (calls.store i) = none)
    (hfile : s.shared.fileLock = none) :
    (run (step calls) s (List.replicate 9 (.call i none))).pc i =
        .ended (.ok ((calls.op i).answer (recordsOf (text calls s)))) ∧
      (run (step calls) s (List.replicate 9 (.call i none))).shared.files =
        (if (calls.op i).isGet then s.shared.files
        else atomicWriteText calls.path
          (.valid ((calls.op i).apply (recordsOf (text calls s)))) s.shared.files) ∧
      (run (step calls) s (List.replicate 9 (.call i none))).shared.renamed =
        if (calls.op i).isGet then s.shared.renamed else s.shared.renamed ++ [i] := by
  have hparty : step calls (.call i none) = stepParty (callStep calls i none) i := rfl
  obtain ⟨hpc', hshared⟩ := Prod.mk.inj (run_replicate_party hparty 9 s)
  obtain ⟨warned, hload⟩ := exists_load (text calls s)
  have hread : FileIdempotencyStore.load true (s.shared.files.read calls.path) none = _ := hload
  rw [hpc', hshared]
  cases hop : calls.op i with
  | get key =>
    simp [callStep, hop, hpc, hthread, henabled, hread, StoreOp.answer, StoreOp.isGet]
  | put key record =>
    simp [callStep, hop, hpc, hthread, hfile, henabled, hread, StoreOp.answer, StoreOp.isGet,
      rename_written]
  | save =>
    simp [callStep, hop, hpc, hthread, hfile, henabled, hread, StoreOp.answer, StoreOp.isGet,
      rename_written]

/-- A run may go on with steps that do not fail. -/
theorem readsSucceed_alone {schedule : List (StoreEvent ι ρ)}
    (hreads : Meets (step calls) ReadsSucceed s schedule) (i : ι) (n : ℕ) :
    Meets (step calls) ReadsSucceed s (schedule ++ List.replicate n (.call i none)) := by
  refine meets_append.mpr ⟨hreads, meets_of_forall (fun a ha s => ?_) _⟩
  rw [List.eq_of_mem_replicate ha]
  exact fun _ => rfl

/-- The stores behave as one map, which each `put` changes at the moment of its `os.replace`.
`before` is what the file held at the start. -/
structure ActsAsMap (calls : StoreCalls ι κ ρ) (before : Records) (s : StoreState ι κ)
    (schedule : List (StoreEvent ι ρ)) : Prop where
  /-- A `get` returns what the map held when it read the file. -/
  get : ∀ i key result, calls.op i = .get key →
    (run (step calls) s schedule).pc i = .ended result →
    ∃ records, ReadAt calls before s schedule i records ∧ result = .ok (records key)
  /-- The file holds the map. -/
  file : recordsOf (text calls (run (step calls) s schedule)) =
    latest calls before (run (step calls) s schedule).shared.renamed
  /-- A `put` that returned has changed the map for good. -/
  put_returned : ∀ i key record result, calls.op i = .put key record →
    (run (step calls) s schedule).pc i = .ended (.ok result) →
    i ∈ (run (step calls) s schedule).shared.renamed
  log_grows : ∀ pre, pre <+: schedule → (run (step calls) s pre).shared.renamed <+:
    (run (step calls) s schedule).shared.renamed
  /-- A `put` that raised has not changed the map. -/
  put_raised : ∀ i key record exc, calls.op i = .put key record →
    (run (step calls) s schedule).pc i = .ended (.error exc) →
    i ∉ (run (step calls) s schedule).shared.renamed
  save : ∀ pre i exc post, schedule = pre ++ .call i exc :: post → calls.op i = .save →
    recordsOf (text calls (run (step calls) s (pre ++ [.call i exc]))) =
      recordsOf (text calls (run (step calls) s pre))
  /-- A call that runs alone ends: it returns what the map holds, and changes the map. -/
  alone : ∀ i, (run (step calls) s schedule).pc i = .threadLock →
    (run (step calls) s schedule).shared.threadLock (calls.store i) = none →
    (run (step calls) s schedule).shared.fileLock = none →
    (run (step calls) s (schedule ++ List.replicate 9 (.call i none))).pc i =
        .ended (.ok ((calls.op i).answer (recordsOf (text calls (run (step calls) s schedule))))) ∧
      recordsOf (text calls (run (step calls) s (schedule ++ List.replicate 9 (.call i none)))) =
        (calls.op i).apply (recordsOf (text calls (run (step calls) s schedule)))

/-- **The stores act as one map**, in any interleaving of their calls, also when writes fail and
processes die, if the file can be read. -/
theorem acts_as_map (calls : StoreCalls ι κ ρ) (henabled : ∀ k, calls.enabled k = true)
    (files : Files Str StoreText) (snapshot : κ → Records)
    (hvalid : ∀ keys, files.read calls.path ≠ some (.invalid keys))
    (schedule : List (StoreEvent ι ρ))
    (hreads : Meets (step calls) ReadsSucceed (start files snapshot) schedule) :
    ActsAsMap calls (recordsOf (files.read calls.path)) (start files snapshot) schedule := by
  have hinv := storeInv_start calls files snapshot
  have hmap : MapInv calls (recordsOf (files.read calls.path)) (start files snapshot) :=
    ⟨hvalid, rfl, fun _ => rfl⟩
  have hend := storeInv_run hinv schedule
  refine ⟨?_, (mapInv_run hinv hmap henabled hreads).records, ?_, ?_, ?_, ?_, ?_⟩
  · intro i key result hop hpc
    have hok := getOk_run hinv hmap henabled hreads hop rfl
    rw [hpc] at hok
    exact hok
  · intro i key record result hop hpc
    have hok := hend i
    rw [hpc] at hok
    exact (hok (by rw [hop]; rfl) (henabled _)).mpr rfl
  · rintro pre ⟨rest, rfl⟩
    rw [run_append]
    exact renamed_run (storeInv_run hinv pre) rest
  · intro i key record exc hop hpc hmem
    have hok := hend i
    rw [hpc] at hok
    cases (hok (by rw [hop]; rfl) (henabled _)).mp hmem
  · intro pre i exc post hsplit hop
    have hpre : pre ++ [.call i exc] <+: schedule :=
      ⟨post, by rw [hsplit, List.append_assoc, List.singleton_append]⟩
    have hbefore := mapInv_run hinv hmap henabled
      (hreads.of_prefix ((List.prefix_append _ _).trans hpre))
    have hafter := mapInv_run hinv hmap henabled (hreads.of_prefix hpre)
    rw [hbefore.records, hafter.records, run_append, run_cons, run_nil]
    -- the log grows by this call at most, and a `save` puts nothing
    have happly : ∀ records, (calls.op i).apply records = records := by
      intro records
      rw [hop, StoreOp.apply_save]
    have hok := storeInv_run hinv pre
    rcases (callStep_moves calls i exc (run (step calls) (start files snapshot) pre).shared
      ((run (step calls) (start files snapshot) pre).pc i)).text (hok i) with
      ⟨-, hlog, -⟩ | ⟨_, -, -, -, hlog⟩
    · exact congrArg (latest calls _) hlog
    · refine (congrArg (latest calls _) hlog).trans ?_
      rw [latest_concat, happly]
  · intro i hpc hthread hfile
    have hafter := mapInv_run hinv hmap henabled (readsSucceed_alone hreads i 9)
    obtain ⟨hended, -, hlog⟩ := run_alone (henabled _) hpc hthread hfile
    refine ⟨by rw [run_append]; exact hended, ?_⟩
    rw [hafter.records, run_append, hlog, (mapInv_run hinv hmap henabled hreads).records]
    split_ifs with hget
    · cases hop : calls.op i with
      | get key => rfl
      | put key record =>
        rw [hop] at hget
        cases hget
      | save => rfl
    · exact latest_concat _ _ i

end Runs

/-! ### Two instances -/

def recordOf (key : Str) : IdempotencyRecord where
  taskId := ['1']
  title := []
  idempotencyKey := key
  createdAt := 0

/-- Two processes with a store each; call `0` puts `a` in the first one, the others put `b` and get
`a` in the second one. -/
def twoStores : StoreCalls ℕ Bool Bool where
  path := ['f']
  op
    | 0 => .put ['a'] (recordOf ['a'])
    | 1 => .put ['b'] (recordOf ['b'])
    | _ => .get ['a']
  store i := i = 0
  enabled _ := true
  process k := k

/-- A directory without files. -/
def noFiles : Files Str StoreText where
  inode _ := none
  content _ := .invalid []
  next := 0
  lt_next h := by cases h
  unique h := by cases h

instance : (a : StoreEvent ℕ Bool) → (s : StoreState ℕ Bool) → Decidable (ReadsSucceed a s)
  | .call i exc, s => inferInstanceAs (Decidable (s.pc i = .reload → exc = none))
  | .die _, _ => .isTrue trivial

/-- The first process puts `a`; the second one gets it, and dies while it writes `b`. -/
def crashWhileWriting : List (StoreEvent ℕ Bool) :=
  List.replicate 9 (.call 0 none) ++ List.replicate 4 (.call 2 none) ++
    List.replicate 5 (.call 1 none) ++ [.die false]

theorem acts_as_map_crash :
    ActsAsMap twoStores (recordsOf (noFiles.read ['f'])) (start noFiles fun _ => noRecords)
      crashWhileWriting :=
  acts_as_map twoStores (fun _ => rfl) noFiles (fun _ => noRecords) (by intro keys h; cases h)
    crashWhileWriting (by decide +kernel)

end MarketplacePipeline.FileIdempotencyStore
