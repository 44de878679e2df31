import MarketplacePipeline.Crm.Equiv.FileStoreMap

/-!
# Entries that are lost

A store that fails to load the file goes on with an empty snapshot and writes it back.  A call that
returns normally keeps the entries of the other keys exactly if it does not write back such a
snapshot over one of them (`keeps_entries`).
-/

namespace MarketplacePipeline.FileIdempotencyStore

open Schedule

variable {ι κ ρ : Type*}

section Calls

variable {calls : StoreCalls ι κ ρ}

/-! ### Loads that fail -/

/-- The load of a text fails: it cannot be read, or it does not validate. -/
def LoadFails (exc : Option PyError) : Option StoreText → Prop
  | none => False
  | some (.valid _) => exc ≠ none
  | some (.invalid _) => True

theorem loadFails_of_load {text : Option StoreText} {exc : Option PyError} {records : Records}
    (h : load true text exc = .ok (records, true)) : LoadFails exc text := by
  rcases text with _ | ⟨records⟩ | ⟨keys⟩
  · simp [load] at h
  · intro hexc
    rw [hexc] at h
    simp [load] at h
  · trivial

variable (calls) in
/-- The file has no entry that the call does not put itself. -/
def Alone (w : StoreWorld ι κ) (i : ι) : Prop :=
  ∀ key, (calls.op i).putTo key = none → ¬ Holds (w.files.read calls.path) key

end Calls

section Runs

variable [DecidableEq ι] [DecidableEq κ] [DecidableEq ρ] (calls : StoreCalls ι κ ρ)

/-- A `put` or `save()` whose load fails finds no entry that it does not put itself. -/
def LoadsOrAlone : StoreEvent ι ρ → StoreState ι κ → Prop
  | .call i exc, s => s.pc i = .reload → (calls.op i).isGet = false →
      LoadFails exc (text calls s) → Alone calls s.shared i
  | .die _, _ => True

/-- A call whose load has failed finds no entry in its way. -/
def WarnedAlone (s : StoreState ι κ) : Prop :=
  ∀ i, (calls.op i).isGet = false → (s.pc i).warned = true → Alone calls s.shared i

variable {calls} {s : StoreState ι κ}

theorem WarnedAlone.step {a : StoreEvent ι ρ} (h : WarnedAlone calls s) (hinv : StoreInv calls s)
    (hloads : LoadsOrAlone calls a s) : WarnedAlone calls (step calls a s) := by
  intro j hget hwarned
  cases a with
  | call i exc =>
    have hmoves := callStep_moves calls i exc s.shared (s.pc i)
    by_cases hj : j = i
    · subst hj
      rw [FileIdempotencyStore.step, pc_stepParty_self] at hwarned
      rcases hmoves.text (hinv j) with ⟨hread, -, -⟩ | ⟨_, -, hnext, -, -⟩
      · intro key hkey
        show ¬ Holds ((callStep calls j exc (s.pc j) s.shared).2.files.read calls.path) key
        rw [hread]
        rcases hmoves.warned hwarned with hold | ⟨hpc, records, hload⟩
        · exact h j hget hold key hkey
        · have hok := hinv j
          rw [hpc] at hok
          rw [(hok.2.2 hget).enabled] at hload
          exact hloads hpc hget (loadFails_of_load hload) key hkey
      · rw [hnext] at hwarned
        cases hwarned
    · rw [FileIdempotencyStore.step, pc_stepParty_of_ne hj] at hwarned
      -- the call holds the lock of the file
      have hfiles := (hmoves.undisturbed (hinv i) hj).files
        ((hinv j).critical_of_warned hget hwarned).file
      intro key hkey
      show ¬ Holds ((callStep calls i exc (s.pc i) s.shared).2.files.read calls.path) key
      rw [hfiles]
      exact h j hget hwarned key hkey
  | die process =>
    refine h j hget ?_
    have hpc : (if calls.process (calls.store j) = process then (s.pc j).die
      else s.pc j).warned = true := hwarned
    split_ifs at hpc
    · cases hdie : s.pc j with
      | _ =>
        rw [hdie] at hpc
        cases hpc
    · exact hpc

/-! ### Calls that return -/

/-- The call returned normally. -/
def Returned (s : StoreState ι κ) (i : ι) : Prop := ∃ result, s.pc i = .ended (.ok result)

/-- The call will not return normally. -/
def StorePc.Failed : StorePc → Prop
  | .fileUnlock result | .threadUnlock result | .ended result => result.isOk = false
  | .dead => True
  | _ => False

theorem failed_step {i : ι} (h : (s.pc i).Failed) (a : StoreEvent ι ρ) :
    ((step calls a s).pc i).Failed := by
  cases a with
  | call j exc =>
    by_cases hi : i = j
    · subst hi
      rw [step, pc_stepParty_self]
      have hmoves := callStep_moves calls i exc s.shared (s.pc i)
      generalize callStep calls i exc (s.pc i) s.shared = next at hmoves ⊢
      generalize s.pc i = pc at hmoves h
      cases hmoves with
      | unlockFile | unlockThread | ended | dead => exact h
      | _ => exact h.elim
    · rw [step, pc_stepParty_of_ne hi]
      exact h
  | die process =>
    show (if calls.process (calls.store i) = process then (s.pc i).die else s.pc i).Failed
    split_ifs
    · cases hpc : s.pc i with
      | ended result =>
        rw [hpc] at h
        exact h
      | _ => trivial
    · exact h

/-- A call that returns normally has not failed before. -/
theorem not_failed_of_returned {i : ι} {schedule : List (StoreEvent ι ρ)}
    (h : Returned (run (step calls) s schedule) i) : ¬ (s.pc i).Failed := by
  intro hfailed
  have hstep : ∀ (a : StoreEvent ι ρ) (s : StoreState ι κ), (s.pc i).Failed →
      ((step calls a s).pc i).Failed := fun a s h => failed_step h a
  have hend := invariant_run hstep hfailed schedule
  obtain ⟨result, hresult⟩ := h
  rw [hresult] at hend
  cases hend

/-- The step of a call that returns keeps the entries of the others, unless it writes back a
snapshot that could not be loaded. -/
theorem keepsOthers_step (hinv : StoreInv calls s) (i : ι) (exc : Option PyError)
    (hok : ¬ ((step calls (.call i exc) s).pc i).Failed) :
    KeepsOthers (calls.op i) (text calls s) (text calls (step calls (.call i exc) s)) ↔
      (s.pc i = .replace true → Alone calls s.shared i) := by
  have hmoves := callStep_moves calls i exc s.shared (s.pc i)
  rw [step, pc_stepParty_self] at hok
  have htext : text calls (step calls (.call i exc) s) =
      (callStep calls i exc (s.pc i) s.shared).2.files.read calls.path := rfl
  rw [htext]
  rcases hmoves.text (hinv i) with ⟨hread, -, hfails⟩ | ⟨warned, hpc, -, hread, -⟩
  · rw [hread]
    refine iff_of_true (fun _ _ hholds => hholds) fun hpc => ?_
    obtain ⟨exc', hnext⟩ := hfails true hpc
    rw [hnext] at hok
    exact absurd rfl hok
  · have hprepared := hinv i
    rw [hpc] at hprepared
    obtain ⟨records, hloaded, hsnapshot⟩ := hprepared.1.records
    rw [hread, hsnapshot, text, keepsOthers_iff hloaded, hpc]
    cases warned with
    | false => simp
    | true => simp [Alone]

/-- No call of the run that returns normally takes away an entry that it does not put. -/
def KeepsEntries (calls : StoreCalls ι κ ρ) (s : StoreState ι κ)
    (schedule : List (StoreEvent ι ρ)) : Prop :=
  ∀ pre i exc post, schedule = pre ++ .call i exc :: post →
    Returned (run (step calls) s schedule) i →
    KeepsOthers (calls.op i) (text calls (run (step calls) s pre))
      (text calls (run (step calls) s (pre ++ [.call i exc])))

/-- **When a store loses entries.**  No call that returns normally takes away an entry of another
key if every `put` and `save()` that fails to load the file finds no such entry in it; and exactly
if none of those that return normally renames a snapshot that it failed to load over such an
entry. -/
theorem keeps_entries (calls : StoreCalls ι κ ρ) (files : Files Str StoreText)
    (snapshot : κ → Records) (schedule : List (StoreEvent ι ρ)) :
    (Meets (step calls) (LoadsOrAlone calls) (start files snapshot) schedule →
        KeepsEntries calls (start files snapshot) schedule) ∧
      (KeepsEntries calls (start files snapshot) schedule ↔
        ∀ pre i exc post, schedule = pre ++ .call i exc :: post →
          Returned (run (step calls) (start files snapshot) schedule) i →
          (run (step calls) (start files snapshot) pre).pc i = .replace true →
          Alone calls (run (step calls) (start files snapshot) pre).shared i) := by
  have hiff : ∀ pre i exc post, schedule = pre ++ .call i exc :: post →
      Returned (run (step calls) (start files snapshot) schedule) i →
      (KeepsOthers (calls.op i) (text calls (run (step calls) (start files snapshot) pre))
          (text calls (run (step calls) (start files snapshot) (pre ++ [.call i exc]))) ↔
        ((run (step calls) (start files snapshot) pre).pc i = .replace true →
          Alone calls (run (step calls) (start files snapshot) pre).shared i)) := by
    intro pre i exc post hsplit hreturned
    have hinv : StoreInv calls (run (step calls) (start files snapshot) pre) :=
      storeInv_run (storeInv_start calls files snapshot) pre
    rw [hsplit, run_append, run_cons] at hreturned
    rw [run_append]
    exact keepsOthers_step hinv i exc (not_failed_of_returned hreturned)
  have hexact : KeepsEntries calls (start files snapshot) schedule ↔
      ∀ pre i exc post, schedule = pre ++ .call i exc :: post →
        Returned (run (step calls) (start files snapshot) schedule) i →
        (run (step calls) (start files snapshot) pre).pc i = .replace true →
        Alone calls (run (step calls) (start files snapshot) pre).shared i := by
    refine forall_congr' fun pre => forall_congr' fun i => forall_congr' fun exc =>
      forall_congr' fun post => forall_congr' fun hsplit => forall_congr' fun hreturned => ?_
    exact hiff pre i exc post hsplit hreturned
  refine ⟨fun hm => hexact.mpr ?_, hexact⟩
  intro pre i exc post hsplit hreturned hpc
  have hstep : ∀ (a : StoreEvent ι ρ) (s : StoreState ι κ),
      StoreInv calls s ∧ WarnedAlone calls s → LoadsOrAlone calls a s →
      StoreInv calls (step calls a s) ∧ WarnedAlone calls (step calls a s) :=
    fun a s h hloads => ⟨h.1.step a, h.2.step h.1 hloads⟩
  have hstart : StoreInv calls (start files snapshot) ∧ WarnedAlone calls (start files snapshot) :=
    ⟨storeInv_start calls files snapshot, fun i _ hi => by cases hi⟩
  have hinv := invariant_run_of_meets hstep hstart (hm.of_prefix ⟨_, hsplit.symm⟩)
  have hprepared := hinv.1 i
  rw [hpc] at hprepared
  exact hinv.2 i hprepared.1.not_get (by rw [hpc]; rfl)

/-- A run whose reads succeed has no failed load. -/
theorem loadsOrAlone_run (files : Files Str StoreText) (snapshot : κ → Records)
    (henabled : ∀ k, calls.enabled k = true)
    (hvalid : ∀ keys, files.read calls.path ≠ some (.invalid keys))
    {schedule : List (StoreEvent ι ρ)}
    (hreads : Meets (step calls) ReadsSucceed (start files snapshot) schedule) :
    Meets (step calls) (LoadsOrAlone calls) (start files snapshot) schedule := by
  rw [meets_iff]
  intro pre a post hsplit
  cases a with
  | die process => trivial
  | call i exc =>
    intro hpc _ hfails
    have hmap := mapInv_run (storeInv_start calls files snapshot)
      ⟨hvalid, rfl, fun _ => rfl⟩ henabled (hreads.of_prefix ⟨_, hsplit.symm⟩)
    rw [(meets_iff.mp hreads) pre _ post hsplit hpc] at hfails
    cases htext : text calls (run (step calls) (start files snapshot) pre) with
    | none =>
      rw [htext] at hfails
      exact hfails.elim
    | some t =>
      rw [htext] at hfails
      cases t with
      | valid records => exact absurd rfl hfails
      | invalid keys => exact absurd htext (hmap.valid keys)

end Runs

/-! ### A file that cannot be read once -/

/-- The first process puts `a` and the second one `b`, then the first one dies. -/
def bothPut : List (StoreEvent ℕ Bool) :=
  List.replicate 9 (.call 0 none) ++ List.replicate 9 (.call 1 none) ++ [.die true]

/-- The `put` of `b` returns, and keeps the entry of `a`. -/
theorem keeps_entries_bothPut :
    Returned (run (step twoStores) (start noFiles fun _ => noRecords) bothPut) 1 ∧
      KeepsEntries twoStores (start noFiles fun _ => noRecords) bothPut :=
  ⟨⟨none, by decide +kernel⟩,
    (keeps_entries twoStores noFiles (fun _ => noRecords) bothPut).1
      (loadsOrAlone_run noFiles (fun _ => noRecords) (fun _ => rfl) (by intro keys h; cases h)
        (by decide +kernel))⟩

/-- After the first process has put `a`, the second one cannot read the file and puts `b`. -/
def unreadableOnce : List (StoreEvent ℕ Bool) :=
  List.replicate 9 (.call 0 none) ++ [.call 1 none, .call 1 none,
    .call 1 (some ⟨.exception, "[Errno 5] Input/output error".toList⟩)] ++
    List.replicate 6 (.call 1 none)

/-- The second `put` returns normally, and the entry of the first one is gone. -/
theorem not_keepsEntries_unreadable :
    ¬ ∀ (calls : StoreCalls ℕ Bool Bool) (files : Files Str StoreText) (snapshot : Bool → Records)
      (schedule : List (StoreEvent ℕ Bool)),
      KeepsEntries calls (start files snapshot) schedule := by
  intro hall
  have hreturned : Returned (run (step twoStores) (start noFiles fun _ => noRecords)
      unreadableOnce) 1 := ⟨none, by decide +kernel⟩
  have hkeeps := hall twoStores noFiles (fun _ => noRecords) unreadableOnce
    (unreadableOnce.take 15) 1 none (unreadableOnce.drop 16) rfl hreturned ['a'] (by decide)
  exact absurd (hkeeps (by decide +kernel)) (by decide +kernel)

end MarketplacePipeline.FileIdempotencyStore
