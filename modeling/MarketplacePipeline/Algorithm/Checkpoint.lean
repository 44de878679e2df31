import MarketplacePipeline.Algorithm.Schedule

/-!
# Parties behind a checkpoint

Some moves of a system belong to parties that have to pass a checkpoint before they may take part:
the first move of such a party only asks the checkpoint, which answers once and for all, and the
later ones are moves of the system if the answer lets the party pass, and nothing otherwise.

What happens behind the checkpoint is a run of the system alone, by the moves that get `through`
(`inner_run`).  A party that is refused might as well not have come (`inner_run_filter`).
-/

namespace MarketplacePipeline

open Schedule

variable {ι α β σ : Type*}

/-- A checkpoint in front of a system with moves `α`. -/
structure Checkpoint (ι α β : Type*) where
  /-- The party of a move, if it has to pass. -/
  party : α → Option ι
  ask : ι → β
  passes : β → Bool

namespace Checkpoint

/-- The system behind the checkpoint, and what each party was answered. -/
structure State (ι β σ : Type*) where
  inner : σ
  answer : ι → Option β

variable [DecidableEq ι] (checkpoint : Checkpoint ι α β) (inner : α → σ → σ)

/-- A move. -/
def step (a : α) (s : State ι β σ) : State ι β σ :=
  match checkpoint.party a with
  | none => { s with inner := inner a s.inner }
  | some i =>
    match s.answer i with
    | none => { s with answer := Function.update s.answer i (some (checkpoint.ask i)) }
    | some answer => if checkpoint.passes answer then { s with inner := inner a s.inner } else s

/-- The party is let pass. -/
def Lets (i : ι) : Prop := checkpoint.passes (checkpoint.ask i) = true

instance (i : ι) : Decidable (checkpoint.Lets i) :=
  inferInstanceAs (Decidable (checkpoint.passes (checkpoint.ask i) = true))

/-- The moves that get through, of parties that have arrived before or not. -/
def through (arrived : ι → Bool) : List α → List α
  | [] => []
  | a :: as =>
    match checkpoint.party a with
    | none => a :: through arrived as
    | some i =>
      if arrived i then if checkpoint.Lets i then a :: through arrived as else through arrived as
      else through (Function.update arrived i true) as

/-- The answers are those of the checkpoint. -/
def Asked (s : State ι β σ) : Prop :=
  ∀ i answer, s.answer i = some answer → answer = checkpoint.ask i

variable {checkpoint inner} {s : State ι β σ} {a : α} {i : ι}

/-! ### One move -/

theorem step_free (h : checkpoint.party a = none) :
    checkpoint.step inner a s = { s with inner := inner a s.inner } := by
  unfold step
  rw [h]

theorem step_arrives (h : checkpoint.party a = some i) (hi : s.answer i = none) :
    checkpoint.step inner a s =
      { s with answer := Function.update s.answer i (some (checkpoint.ask i)) } := by
  unfold step
  rw [h]
  dsimp only
  rw [hi]

theorem step_passes (hasked : checkpoint.Asked s) (h : checkpoint.party a = some i)
    (hi : (s.answer i).isSome) (hlets : checkpoint.Lets i) :
    checkpoint.step inner a s = { s with inner := inner a s.inner } := by
  obtain ⟨answer, hanswer⟩ := Option.isSome_iff_exists.mp hi
  obtain rfl := hasked i answer hanswer
  unfold step
  rw [h]
  dsimp only
  rw [hanswer]
  exact if_pos hlets

theorem step_refused (hasked : checkpoint.Asked s) (h : checkpoint.party a = some i)
    (hi : (s.answer i).isSome) (hlets : ¬ checkpoint.Lets i) : checkpoint.step inner a s = s := by
  obtain ⟨answer, hanswer⟩ := Option.isSome_iff_exists.mp hi
  obtain rfl := hasked i answer hanswer
  unfold step
  rw [h]
  dsimp only
  rw [hanswer]
  exact if_neg hlets

/-- A move answers its party at most. -/
theorem answer_step (hasked : checkpoint.Asked s) (a : α) (i : ι) :
    (checkpoint.step inner a s).answer i =
      if checkpoint.party a = some i then some (checkpoint.ask i) else s.answer i := by
  cases hparty : checkpoint.party a with
  | none =>
    rw [step_free hparty, if_neg (by simp)]
  | some j =>
    cases hanswer : s.answer j with
    | none =>
      rw [step_arrives hparty hanswer]
      dsimp only
      rw [Function.update_apply]
      by_cases hij : i = j
      · rw [if_pos hij, if_pos (by rw [hij]), hij]
      · rw [if_neg hij, if_neg (fun heq => hij (Option.some.inj heq).symm)]
    | some answer =>
      have hkept : (checkpoint.step inner a s).answer = s.answer := by
        have hsome : (s.answer j).isSome := by
          rw [hanswer]
          rfl
        by_cases hlets : checkpoint.Lets j
        · rw [step_passes hasked hparty hsome hlets]
        · rw [step_refused hasked hparty hsome hlets]
      rw [hkept]
      split_ifs with hij
      · rw [← Option.some.inj hij, hanswer, hasked j answer hanswer]
      · rfl

theorem Asked.step (h : checkpoint.Asked s) (a : α) :
    checkpoint.Asked (checkpoint.step inner a s) := by
  intro i answer hanswer
  rw [answer_step h] at hanswer
  split_ifs at hanswer
  · exact (Option.some.inj hanswer).symm
  · exact h i answer hanswer

/-! ### Runs -/

/-- Who has been answered. -/
theorem answer_run (h : checkpoint.Asked s) (as : List α) (i : ι) :
    (run (checkpoint.step inner) s as).answer i =
      if ∃ a ∈ as, checkpoint.party a = some i then some (checkpoint.ask i) else s.answer i := by
  induction as generalizing s with
  | nil => rw [run_nil, if_neg (by simp)]
  | cons a as ih =>
    have hcons : (∃ b ∈ a :: as, checkpoint.party b = some i) ↔
        checkpoint.party a = some i ∨ ∃ b ∈ as, checkpoint.party b = some i := by simp
    rw [run_cons, ih (h.step a), answer_step h]
    by_cases hrest : ∃ b ∈ as, checkpoint.party b = some i
    · rw [if_pos hrest, if_pos (hcons.mpr (.inr hrest))]
    · rw [if_neg hrest]
      by_cases ha : checkpoint.party a = some i
      · rw [if_pos ha, if_pos (hcons.mpr (.inl ha))]
      · rw [if_neg ha, if_neg fun hmem => (hcons.mp hmem).elim ha hrest]

/-- **Behind the checkpoint**, the moves that get through have happened, and nothing else. -/
theorem inner_run (h : checkpoint.Asked s) (as : List α) :
    (run (checkpoint.step inner) s as).inner =
      run inner s.inner (checkpoint.through (fun i => (s.answer i).isSome) as) := by
  induction as generalizing s with
  | nil => rfl
  | cons a as ih =>
    rw [run_cons, ih (h.step a), through]
    cases hparty : checkpoint.party a with
    | none =>
      rw [step_free hparty]
      rfl
    | some i =>
      dsimp only
      cases hanswer : (s.answer i).isSome with
      | false =>
        have hnone : s.answer i = none := by
          rw [← Option.isNone_iff_eq_none, ← Option.isSome_eq_false_iff]
          exact hanswer
        have harrived : (fun j => ((checkpoint.step inner a s).answer j).isSome) =
            Function.update (fun j => (s.answer j).isSome) i true := by
          funext j
          rw [answer_step h, hparty, Function.update_apply]
          by_cases hij : j = i
          · rw [if_pos (by rw [hij]), if_pos hij]
            rfl
          · rw [if_neg (fun heq => hij (Option.some.inj heq).symm), if_neg hij]
        rw [harrived, step_arrives hparty hnone, if_neg Bool.false_ne_true]
      | true =>
        rw [if_pos rfl]
        by_cases hlets : checkpoint.Lets i
        · rw [step_passes h hparty hanswer hlets, if_pos hlets]
          rfl
        · rw [step_refused h hparty hanswer hlets, if_neg hlets]

/-- The moves that get through come in the order of the schedule. -/
theorem through_sublist (arrived : ι → Bool) (as : List α) :
    (checkpoint.through arrived as).Sublist as := by
  induction as generalizing arrived with
  | nil => exact List.Sublist.refl _
  | cons a as ih =>
    rw [through]
    cases checkpoint.party a with
    | none => exact (ih arrived).cons_cons a
    | some i =>
      dsimp only
      split_ifs
      · exact (ih arrived).cons_cons a
      · exact (ih arrived).cons a
      · exact (ih _).cons a

/-- The move is not one of a party that is refused. -/
def MayMove (checkpoint : Checkpoint ι α β) (a : α) : Prop :=
  ∀ i ∈ checkpoint.party a, checkpoint.Lets i

instance (a : α) : Decidable (checkpoint.MayMove a) :=
  inferInstanceAs (Decidable (∀ i ∈ checkpoint.party a, checkpoint.Lets i))

/-- Only parties that are let pass get through. -/
theorem mayMove_of_mem_through {arrived : ι → Bool} {as : List α}
    (ha : a ∈ checkpoint.through arrived as) : checkpoint.MayMove a := by
  induction as generalizing arrived with
  | nil => cases ha
  | cons b as ih =>
    rw [through] at ha
    cases hparty : checkpoint.party b with
    | none =>
      rw [hparty] at ha
      rcases List.mem_cons.mp ha with rfl | ha
      · intro i hi
        rw [hparty] at hi
        cases hi
      · exact ih ha
    | some i =>
      rw [hparty] at ha
      dsimp only at ha
      split_ifs at ha with harrived hlets
      · rcases List.mem_cons.mp ha with rfl | ha
        · intro j hj
          rw [hparty] at hj
          obtain rfl := Option.some.inj hj
          exact hlets
        · exact ih ha
      · exact ih ha
      · exact ih ha

/-- The moves of refused parties do not matter for what gets through. -/
theorem through_filter {arrived arrived' : ι → Bool}
    (h : ∀ i, checkpoint.Lets i → arrived i = arrived' i) (as : List α) :
    checkpoint.through arrived (as.filter fun a => checkpoint.MayMove a) =
      checkpoint.through arrived' as := by
  induction as generalizing arrived arrived' with
  | nil => rfl
  | cons a as ih =>
    rw [List.filter_cons]
    cases hparty : checkpoint.party a with
    | none =>
      have hmay : checkpoint.MayMove a := fun i hi => by
        rw [hparty] at hi
        cases hi
      rw [if_pos (decide_eq_true hmay), through, through, hparty]
      dsimp only
      rw [ih h]
    | some i =>
      have hmay : checkpoint.MayMove a ↔ checkpoint.Lets i := by
        unfold MayMove
        rw [hparty]
        simp
      by_cases hlets : checkpoint.Lets i
      · rw [if_pos (decide_eq_true (hmay.mpr hlets)), through, through, hparty]
        dsimp only
        rw [h i hlets, if_pos hlets, if_pos hlets, ih h, ih fun j hj => ?_]
        rw [Function.update_apply, Function.update_apply, h j hj]
      · rw [if_neg (by simpa using hmay.not.mpr hlets), through, hparty]
        dsimp only
        rw [if_neg hlets]
        split_ifs
        · exact ih h
        · -- a party that is refused does not get through, whether it has arrived or not
          apply ih
          intro j hj
          have hne : j ≠ i := by
            rintro rfl
            exact hlets hj
          rw [Function.update_of_ne hne, h j hj]

/-- **Who is refused leaves no trace**: without the moves of the parties that are refused, the same
happens behind the checkpoint. -/
theorem inner_run_filter (h : checkpoint.Asked s) (as : List α) :
    (run (checkpoint.step inner) s (as.filter fun a => checkpoint.MayMove a)).inner =
      (run (checkpoint.step inner) s as).inner := by
  rw [inner_run h, inner_run h, through_filter fun _ _ => rfl]

end Checkpoint

end MarketplacePipeline
