import MarketplacePipeline.Algorithm.Schedule

/-!
# Components that may answer in several ways

The state of a `Component` after a request is determined, its answer is not.  One component refines
another on a list of requests if whatever it answers, the other may answer too.  `refines_iff_meets`
decides this request by request: the states of both are related to a third one, an account of the
requests so far, and `C` says at which accounts a request may be answered alike.
-/

namespace MarketplacePipeline.PossibleAnswers

open Schedule

variable {α β σ σ' γ : Type*}

structure Component (α β σ : Type*) where
  step : α → σ → σ
  answer : α → σ → β → Prop

namespace Component

/-- The lists of answers that a component may give to a list of requests. -/
def Possible (c : Component α β σ) : σ → List α → List β → Prop
  | _, [], bs => bs = []
  | s, a :: as, bs => ∃ b rest, bs = b :: rest ∧ c.answer a s b ∧ c.Possible (c.step a s) as rest

/-- Whatever `c` answers, `c'` may answer. -/
def Refines (c : Component α β σ) (c' : Component α β σ') (s : σ) (s' : σ') (as : List α) : Prop :=
  ∀ bs, c.Possible s as bs → c'.Possible s' as bs

variable {c : Component α β σ} {c' : Component α β σ'} {s : σ} {s' : σ'} {a : α} {as : List α}

/-- The first request, and those after it. -/
theorem refines_cons (hfirst : ∃ b, c.answer a s b)
    (hrest : ∃ bs, c.Possible (c.step a s) as bs) :
    c.Refines c' s s' (a :: as) ↔
      (∀ b, c.answer a s b → c'.answer a s' b) ∧
        c.Refines c' (c.step a s) (c'.step a s') as := by
  constructor
  · intro h
    constructor
    · intro b hb
      obtain ⟨bs, hbs⟩ := hrest
      obtain ⟨b', bs', heq, hb', -⟩ := h (b :: bs) ⟨b, bs, rfl, hb, hbs⟩
      rwa [(List.cons.inj heq).1]
    · intro bs hbs
      obtain ⟨b, hb⟩ := hfirst
      obtain ⟨b', bs', heq, -, hbs'⟩ := h (b :: bs) ⟨b, bs, rfl, hb, hbs⟩
      rwa [(List.cons.inj heq).2]
  · rintro ⟨hanswer, htail⟩ bs ⟨b, rest, rfl, hb, hpossible⟩
    exact ⟨b, rest, rfl, hanswer b hb, htail rest hpossible⟩

variable {step : α → γ → γ} {R : γ → σ → Prop} {Q : γ → σ' → Prop} {C : α → γ → Prop} {g : γ}

/-- A component whose every request has an answer has answers to a list of them. -/
theorem exists_possible (hstep : ∀ a g s, R g s → R (step a g) (c.step a s))
    (htotal : ∀ a g s, R g s → ∃ b, c.answer a s b) (h : R g s) (as : List α) :
    ∃ bs, c.Possible s as bs := by
  induction as generalizing g s with
  | nil => exact ⟨[], rfl⟩
  | cons a as ih =>
    obtain ⟨b, hb⟩ := htotal a g s h
    obtain ⟨bs, hbs⟩ := ih (hstep a g s h)
    exact ⟨b :: bs, b, bs, rfl, hb, hbs⟩

/-- **When one component refines another**: if and only if every request is taken at an account of
the earlier ones at which its answers may agree. -/
theorem refines_iff_meets (hstep : ∀ a g s, R g s → R (step a g) (c.step a s))
    (hstep' : ∀ a g s', Q g s' → C a g → Q (step a g) (c'.step a s'))
    (htotal : ∀ a g s, R g s → ∃ b, c.answer a s b)
    (hiff : ∀ a g s s', R g s → Q g s' →
      ((∀ b, c.answer a s b → c'.answer a s' b) ↔ C a g))
    (h : R g s) (h' : Q g s') (as : List α) :
    c.Refines c' s s' as ↔ Meets step C g as := by
  induction as generalizing g s s' with
  | nil => exact iff_of_true (fun _ hbs => hbs) trivial
  | cons a as ih =>
    have hnext := hstep a g s h
    rw [refines_cons (htotal a g s h) (exists_possible hstep htotal hnext as), meets_cons,
      hiff a g s s' h h']
    exact and_congr_right fun hC => ih hnext (hstep' a g s' h' hC)

end Component

end MarketplacePipeline.PossibleAnswers
