import Mathlib.Data.List.Basic
import Mathlib.Logic.Function.Basic

/-!
# Creating one object for each key

A component that is asked again and again to provide an object for a key may create it, reuse one
that it finds, or fail, and must not create a second one.  Its abstract state `bound` is the object
that each key stands for so far; `Step` is what a request for a key may do to it, and `Trace` a run
of such steps with what each of them came to.

A component refines this by giving `bound` for each of its states and a `Step` for each of its
calls.  The rules at the end are then its guarantees: a key that is bound stays bound to its object
(`Trace.mono`) and every request for it is answered with that object (`Trace.of_bound`), an object
is created at most once for a key (`Trace.countP_created_le`), and after a request that did not
fail every other request for its key reuses the same object (`Trace.replayed`).
-/

namespace MarketplacePipeline.OnceOnly

variable {κ ι : Type*} [DecidableEq κ]

/-- What a request for a key came to. -/
inductive Outcome (ι : Type*)
  | failed
  | created (id : ι)
  | reused (id : ι)

/-- The request created an object. -/
def Outcome.isCreated : Outcome ι → Bool
  | .created _ => true
  | _ => false

/-- A request for a key: a free key stays free, or is bound to an object that is created or found;
a bound key is replayed. -/
inductive Step : (κ → Option ι) → κ → Outcome ι → (κ → Option ι) → Prop
  | failed {bound : κ → Option ι} {k : κ} (free : bound k = none) : Step bound k .failed bound
  | created {bound : κ → Option ι} {k : κ} (free : bound k = none) (id : ι) :
      Step bound k (.created id) (Function.update bound k (some id))
  | adopted {bound : κ → Option ι} {k : κ} (free : bound k = none) (id : ι) :
      Step bound k (.reused id) (Function.update bound k (some id))
  | replayed {bound : κ → Option ι} {k : κ} {id : ι} (hit : bound k = some id) :
      Step bound k (.reused id) bound

/-- A run of requests. -/
inductive Trace : (κ → Option ι) → List (κ × Outcome ι) → (κ → Option ι) → Prop
  | nil (bound : κ → Option ι) : Trace bound [] bound
  | cons {bound bound' bound'' : κ → Option ι} {k : κ} {o : Outcome ι}
      {l : List (κ × Outcome ι)} (step : Step bound k o bound') (rest : Trace bound' l bound'') :
      Trace bound ((k, o) :: l) bound''

section Step

variable {bound bound' : κ → Option ι} {k k' : κ} {o : Outcome ι} {id : ι}

theorem Step.mono (h : Step bound k o bound') (hk : bound k' = some id) :
    bound' k' = some id := by
  cases h with
  | failed free => exact hk
  | created free id' | adopted free id' =>
    have hne : k' ≠ k := by
      rintro rfl
      rw [hk] at free
      cases free
    rw [Function.update_of_ne hne]
    exact hk
  | replayed hit => exact hk

theorem Step.of_bound (h : Step bound k o bound') (hk : bound k = some id) : o = .reused id := by
  cases h with
  | failed free | created free id' | adopted free id' =>
    rw [hk] at free
    cases free
  | replayed hit => rw [Option.some.inj (hk.symm.trans hit)]

/-- A request that did not fail leaves its key bound to the object it came to. -/
theorem Step.bound_after (h : Step bound k o bound') (ho : o ≠ .failed) :
    ∃ id, (o = .created id ∨ o = .reused id) ∧ bound' k = some id := by
  cases h with
  | failed free => exact absurd rfl ho
  | created free id => exact ⟨id, Or.inl rfl, Function.update_self ..⟩
  | adopted free id => exact ⟨id, Or.inr rfl, Function.update_self ..⟩
  | replayed hit => exact ⟨_, Or.inr rfl, hit⟩

end Step

section Trace

variable {bound bound' : κ → Option ι} {k : κ} {o : Outcome ι} {id : ι}
  {l : List (κ × Outcome ι)}

theorem Trace.mono (h : Trace bound l bound') (hk : bound k = some id) : bound' k = some id := by
  induction h with
  | nil bound => exact hk
  | cons step rest ih => exact ih (step.mono hk)

/-- Requests for a bound key reuse its object. -/
theorem Trace.of_bound (h : Trace bound l bound') (hk : bound k = some id) (ho : (k, o) ∈ l) :
    o = .reused id := by
  induction h with
  | nil bound => cases ho
  | cons step rest ih =>
    rcases List.mem_cons.mp ho with heq | ho
    · obtain ⟨rfl, rfl⟩ := Prod.mk.inj heq
      exact step.of_bound hk
    · exact ih (step.mono hk) ho

/-- At most one request creates an object for a key, and none if the key was bound before. -/
theorem Trace.countP_created_le (h : Trace bound l bound') (k : κ) :
    l.countP (fun e => e.1 = k ∧ e.2.isCreated = true) ≤ if bound k = none then 1 else 0 := by
  induction h with
  | nil bound => simp
  | cons step rest ih =>
    rename_i b b' b'' k' o' l'
    rw [List.countP_cons]
    cases hk : b k with
    | some id =>
      -- the key stays bound, so neither this request nor a later one creates
      rw [step.mono hk] at ih
      have hhead : ¬ (k' = k ∧ o'.isCreated = true) := by
        rintro ⟨rfl, ho⟩
        rw [step.of_bound hk] at ho
        cases ho
      simpa [hhead] using ih
    | none =>
      by_cases hhead : k' = k ∧ o'.isCreated = true
      · -- this request creates; the key is bound for the rest of the run
        obtain ⟨rfl, ho⟩ := hhead
        obtain ⟨id, -, hbound⟩ := step.bound_after (by rintro rfl; cases ho)
        rw [hbound] at ih
        simpa [ho] using ih
      · rw [if_neg (by simpa using hhead), if_pos rfl, Nat.add_zero]
        exact Nat.le_trans ih (by split_ifs <;> omega)

/-- After a request that did not fail, the other requests for its key reuse its object. -/
theorem Trace.replayed {pre post : List (κ × Outcome ι)}
    (h : Trace bound (pre ++ (k, o) :: post) bound') (ho : o ≠ .failed) :
    ∃ id, (o = .created id ∨ o = .reused id) ∧ ∀ o', (k, o') ∈ post → o' = .reused id := by
  induction pre generalizing bound with
  | nil =>
    cases h with
    | cons step rest =>
      obtain ⟨id, heq, hbound⟩ := step.bound_after ho
      exact ⟨id, heq, fun o' ho' => rest.of_bound hbound ho'⟩
  | cons e pre ih =>
    cases h with
    | cons step rest => exact ih rest

/-- After a run, the key of every request that did not fail is bound. -/
theorem Trace.bound_after (h : Trace bound l bound') (hmem : (k, o) ∈ l) (ho : o ≠ .failed) :
    bound' k ≠ none := by
  induction h with
  | nil bound => cases hmem
  | cons step rest ih =>
    rcases List.mem_cons.mp hmem with heq | hmem
    · obtain ⟨rfl, rfl⟩ := Prod.mk.inj heq
      obtain ⟨id, -, hbound⟩ := step.bound_after ho
      rw [rest.mono hbound]
      simp
    · exact ih hmem

end Trace

end MarketplacePipeline.OnceOnly
