import MarketplacePipeline.Python.Text

/-!
# Raised exceptions

`PyError` is a raised exception: its class, as far as some handler of the pipeline tells classes
apart, and its text `str(exc)`.  Code that raises and has effects is a program of
`EStateM PyError W`: it ends with a value or with an exception, and keeps the world `W` it had
reached in both cases.
-/

namespace MarketplacePipeline

/-- The exception classes that the handlers of the pipeline tell apart. -/
inductive ErrorKind
  /-- Not a subclass of `Exception`: `KeyboardInterrupt`, `SystemExit`. -/
  | baseException
  /-- `ProxyQuotaExhaustedError`. -/
  | proxyQuotaExhausted
  /-- `CrmConfigurationError`. -/
  | crmConfiguration
  /-- `RateLimitError`. -/
  | rateLimit
  /-- `httpx.TransportError`. -/
  | transport
  /-- `httpx.HTTPStatusError`. -/
  | httpStatus
  /-- `ValueError`. -/
  | value
  /-- A violated constraint of the job table. -/
  | integrity
  /-- Any other subclass of `Exception`. -/
  | exception
  deriving DecidableEq, Repr

/-- A raised exception. -/
structure PyError where
  kind : ErrorKind
  /-- `str(exc)`. -/
  text : Str
  deriving DecidableEq, Repr

/-- Whether `except Exception` catches it. -/
def PyError.isException (e : PyError) : Bool := e.kind != .baseException

/-- Whatever is raised is caught by `except Exception`. -/
def OnlyExceptions {α : Type*} (x : Except PyError α) : Prop :=
  ∀ exc, x = .error exc → exc.isException = true

theorem onlyExceptions_ok {α : Type*} (a : α) : OnlyExceptions (.ok a : Except PyError α) :=
  fun _ h => by cases h

theorem onlyExceptions_error {α : Type*} {exc : PyError} (h : exc.isException = true) :
    OnlyExceptions (.error exc : Except PyError α) :=
  fun _ heq => by
    cases heq
    exact h

theorem OnlyExceptions.bind {α β : Type} {x : Except PyError α} {f : α → Except PyError β}
    (hx : OnlyExceptions x) (hf : ∀ a, OnlyExceptions (f a)) : OnlyExceptions (x >>= f) := by
  cases x with
  | ok a => exact hf a
  | error exc => exact onlyExceptions_error (hx exc rfl)

/-- The value of a call that raised or returned, inside a program with effects. -/
def liftResult {W α : Type} : Except PyError α → EStateM PyError W α
  | .ok a => pure a
  | .error e => throw e

@[simp] theorem run_liftResult_ok {W α : Type} (a : α) (w : W) :
    (liftResult (.ok a) : EStateM PyError W α).run w = .ok a w := rfl

@[simp] theorem run_liftResult_error {W α : Type} (e : PyError) (w : W) :
    (liftResult (.error e) : EStateM PyError W α).run w = .error e w := rfl

theorem liftResult_bind {W α β : Type} (x : Except PyError α) (f : α → Except PyError β) :
    (liftResult (x >>= f) : EStateM PyError W β) = liftResult x >>= fun a => liftResult (f a) := by
  cases x <;> rfl

/-- A program that returns has returned from each of its parts. -/
theorem run_bind_eq_ok_iff {W α β : Type} {program : EStateM PyError W α}
    {next : α → EStateM PyError W β} {w w'' : W} {b : β} :
    (program >>= next).run w = .ok b w'' ↔
      ∃ a w', program.run w = .ok a w' ∧ (next a).run w' = .ok b w'' := by
  rw [EStateM.run_bind]
  cases program.run w <;> simp

/-- A call that returns has returned from each of its parts. -/
theorem bind_eq_ok_iff {α β : Type} {x : Except PyError α} {f : α → Except PyError β} {b : β} :
    x >>= f = .ok b ↔ ∃ a, x = .ok a ∧ f a = .ok b := by
  cases x with
  | ok a => simp [bind, Except.bind]
  | error exc => simp [bind, Except.bind]

/-- The call returns if and only if `P` holds, and what it raises otherwise meets `K`. -/
def ReturnsIff {α : Type} (K : PyError → Prop) (x : Except PyError α) (P : Prop) : Prop :=
  ((∃ a, x = .ok a) ↔ P) ∧ ∀ exc, x = .error exc → K exc

namespace ReturnsIff

variable {α β : Type} {K : PyError → Prop} {x : Except PyError α} {P Q : Prop}

protected theorem ok (a : α) : ReturnsIff K (.ok a) True :=
  ⟨iff_of_true ⟨a, rfl⟩ trivial, fun _ h => by cases h⟩

protected theorem error {exc : PyError} (h : K exc) : ReturnsIff K (.error exc : Except PyError α)
    False :=
  ⟨iff_of_false (fun ⟨_, heq⟩ => by cases heq) id, fun _ heq => by
    cases heq
    exact h⟩

theorem congr (h : ReturnsIff K x P) (hiff : P ↔ Q) : ReturnsIff K x Q := ⟨h.1.trans hiff, h.2⟩

/-- A call in two parts. -/
theorem bind (hx : ReturnsIff K x P) {f : α → Except PyError β}
    (hf : ∀ a, x = .ok a → ReturnsIff K (f a) Q) : ReturnsIff K (x >>= f) (P ∧ Q) := by
  cases x with
  | ok a =>
    have hP : P := hx.1.mp ⟨a, rfl⟩
    exact (hf a rfl).congr (and_iff_right hP).symm
  | error exc =>
    have hP : ¬ P := fun h => by
      obtain ⟨a, ha⟩ := hx.1.mpr h
      cases ha
    exact (ReturnsIff.error (hx.2 exc rfl)).congr (iff_of_false id fun h => hP h.1)

theorem map (h : ReturnsIff K x P) (f : α → β) : ReturnsIff K (x.map f) P :=
  (h.bind fun a _ => ReturnsIff.ok (f a)).congr (and_iff_left trivial)

theorem mapM {f : α → Except PyError β} {P : α → Prop} (as : List α)
    (h : ∀ a ∈ as, ReturnsIff K (f a) (P a)) : ReturnsIff K (as.mapM f) (∀ a ∈ as, P a) := by
  induction as with
  | nil => exact (ReturnsIff.ok []).congr (by simp)
  | cons a as ih =>
    rw [List.mapM_cons, List.forall_mem_cons]
    refine (h a List.mem_cons_self).bind fun b _ => ?_
    have hrest := ih fun a' ha' => h a' (List.mem_cons_of_mem a ha')
    refine (hrest.bind fun bs _ => ReturnsIff.ok (b :: bs)).congr ?_
    exact and_iff_left trivial

end ReturnsIff

/-- The results of a call for every element, one by one. -/
theorem eq_map_of_mapM {α β : Type} {f : α → Except PyError β} {g : α → β}
    (h : ∀ a b, f a = .ok b → b = g a) {as : List α} {bs : List β} (hmap : as.mapM f = .ok bs) :
    bs = as.map g := by
  induction as generalizing bs with
  | nil =>
    cases hmap
    rfl
  | cons a as ih =>
    rw [List.mapM_cons, bind_eq_ok_iff] at hmap
    obtain ⟨b, hb, hrest⟩ := hmap
    obtain ⟨bs', hbs, heq⟩ := bind_eq_ok_iff.mp hrest
    cases heq
    rw [h a b hb, ih hbs, List.map_cons]

/-- The world a program has reached when control leaves it. -/
def worldAfter {W α : Type} : EStateM.Result PyError W α → W
  | .ok _ w => w
  | .error _ w => w

/-- The value that a program returned, or the exception that it raised. -/
def outcomeOf {W α : Type} : EStateM.Result PyError W α → Except PyError α
  | .ok a _ => .ok a
  | .error e _ => .error e

end MarketplacePipeline
