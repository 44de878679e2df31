import MarketplacePipeline.Python.Error

/-!
# What a program leaves alone

`Leaves part program` says that the part of the world is the same after the program, whether it
returns or raises.  Programs that are put together of such ones leave the part alone, too.
-/

namespace MarketplacePipeline

/-- The program does not change the part. -/
def Leaves {W β α : Type} (part : W → β) (program : EStateM PyError W α) : Prop :=
  ∀ w, part (worldAfter (program.run w)) = part w

namespace Leaves

variable {W β α γ : Type} {part : W → β}

theorem pure (a : α) : Leaves part (pure a : EStateM PyError W α) := fun _ => rfl

theorem bind {program : EStateM PyError W α} {next : α → EStateM PyError W γ}
    (h : Leaves part program) (hnext : ∀ a, Leaves part (next a)) :
    Leaves part (program >>= next) := by
  intro w
  have hfirst := h w
  rw [EStateM.run_bind]
  cases hrun : program.run w with
  | ok a w' =>
    rw [hrun] at hfirst
    exact (hnext a w').trans hfirst
  | error exc w' =>
    rw [hrun] at hfirst
    exact hfirst

theorem mapM {f : α → EStateM PyError W γ} (h : ∀ a, Leaves part (f a)) (as : List α) :
    Leaves part (as.mapM f) := by
  induction as with
  | nil => exact pure []
  | cons a as ih =>
    rw [List.mapM_cons]
    apply (h a).bind
    intro b
    exact ih.bind fun bs => pure (b :: bs)

theorem of_run_ok {program : EStateM PyError W α} (h : Leaves part program) {w w' : W} {a : α}
    (hrun : program.run w = .ok a w') : part w' = part w := by
  have hpart := h w
  rw [hrun] at hpart
  exact hpart

theorem of_run_error {program : EStateM PyError W α} (h : Leaves part program) {w w' : W}
    {exc : PyError} (hrun : program.run w = .error exc w') : part w' = part w := by
  have hpart := h w
  rw [hrun] at hpart
  exact hpart

end Leaves

/-- The program raises nothing but what `except Exception` catches. -/
def RaisesExceptions {W α : Type} (program : EStateM PyError W α) : Prop :=
  ∀ w exc w', program.run w = .error exc w' → exc.isException = true

/-- A list of programs raises what one of them has raised. -/
theorem exists_of_run_mapM_error {W α γ : Type} {f : α → EStateM PyError W γ} {as : List α}
    {w w' : W} {exc : PyError} (h : (as.mapM f).run w = .error exc w') :
    ∃ a ∈ as, ∃ u u', (f a).run u = .error exc u' := by
  induction as generalizing w with
  | nil => cases h
  | cons a as ih =>
    rw [List.mapM_cons, EStateM.run_bind] at h
    cases hrun : (f a).run w with
    | error exc₁ w₁ =>
      rw [hrun] at h
      cases h
      exact ⟨a, List.mem_cons_self, w, _, hrun⟩
    | ok b w₁ =>
      rw [hrun] at h
      dsimp only at h
      rw [EStateM.run_bind] at h
      cases hrest : (as.mapM f).run w₁ with
      | error exc₂ w₂ =>
        rw [hrest] at h
        cases h
        obtain ⟨a', hmem, hraised⟩ := ih hrest
        exact ⟨a', List.mem_cons_of_mem a hmem, hraised⟩
      | ok bs w₂ =>
        rw [hrest] at h
        cases h

end MarketplacePipeline
