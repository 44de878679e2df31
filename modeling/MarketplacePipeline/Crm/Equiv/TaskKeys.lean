import MarketplacePipeline.Algorithm.Separator
import MarketplacePipeline.Crm.Equiv.RemoteTask
import MarketplacePipeline.Python.DateTime

/-!
# Which tasks have the same key

The key is a digest of the title, a line break and the description.  A line break that is in a title
or in a description may be taken for the one between them, so two tasks can have the same key if
one is the other with a later line break between its title and its description (`LineMoved`).
`tellsApart_iff` says that this is the only way.
-/

namespace MarketplacePipeline.AmoCrmGateway

open IdempotencyPolicy

/-- The same title and description, up to whitespace around them. -/
def SameContent (a b : CrmTaskRequest) : Prop :=
  a.title.strip = b.title.strip ∧ a.description.strip = b.description.strip

/-- The title of `b` is that of `a`, a line break, and a text `m`; the description of `a` is `m`, a
line break, and the description of `b`. -/
def LineMoved (a b : CrmTaskRequest) : Prop :=
  Separator.Later '\n' a.title.strip a.description.strip b.title.strip b.description.strip

section Gateway

variable {σ : Type} (gateway : AmoCrmGateway σ) {crm : AmoCrm}

/-- What the store and the account know is under one key. -/
def KnowsOnly (key : Str) (w : CrmWorld σ) : Prop :=
  ∀ other, other ≠ key →
    gateway.store.get other w.store = none ∧ findTask other w.tasks = none

/-- A call that finds no task reuses none. -/
theorem reused_of_not_found {task : CrmTaskRequest} {w w' w'' : CrmWorld σ}
    (hfind : (gateway.findExisting crm (gateway.keyOf task)).run w = .ok none w')
    {outcome : CrmTaskOutcome} (h : (gateway.createTask crm task).run w = .ok outcome w'') :
    outcome.reused = false := by
  rw [run_createTask_of_not_found gateway crm hfind] at h
  split_ifs at h with hmock
  · obtain ⟨rfl, -⟩ := EStateM.Result.ok.inj h
    rfl
  · by_cases hconfigured : gateway.Configured
    · rw [run_createRemoteTask gateway crm hconfigured] at h
      cases hout : gateway.remoteOutcome crm task with
      | error exc =>
        rw [hout] at h
        cases h
      | ok posted =>
        rw [hout] at h
        obtain ⟨rfl, -⟩ := EStateM.Result.ok.inj h
        exact gateway.reused_of_remoteOutcome hout
    · rw [run_createRemoteTask_unconfigured gateway crm hconfigured] at h
      cases h

/-- Nor does a call for another key than the one that is known. -/
theorem reused_of_knowsOnly (hserves : crm.ServesPages) {key : Str} {task : CrmTaskRequest}
    (hkey : gateway.keyOf task ≠ key) {w w' : CrmWorld σ} (hknows : gateway.KnowsOnly key w)
    {outcome : CrmTaskOutcome} (h : (gateway.createTask crm task).run w = .ok outcome w') :
    outcome.reused = false := by
  obtain ⟨hmiss, hnone⟩ := hknows _ hkey
  obtain ⟨gets, -, hfind⟩ := gateway.run_findExisting_of_findTask_none hserves hmiss hnone
  exact gateway.reused_of_not_found hfind h

end Gateway

/-! ### The keys of two tasks -/

/-- The digest tells two tasks apart, unless they have the same content. -/
structure TellsApart (sha256 : Sha256) (a b : CrmTaskRequest) : Prop where
  key_eq_iff : computeTaskIdempotencyKey sha256 a = computeTaskIdempotencyKey sha256 b ↔
    SameContent a b
  /-- Where only `a` is known, a call for another task `b` reuses nothing. -/
  not_mistaken : ¬ SameContent a b → ∀ (σ : Type) (gateway : AmoCrmGateway σ) (crm : AmoCrm)
    (w w' : CrmWorld σ) (outcome : CrmTaskOutcome), gateway.sha256 = sha256 → crm.ServesPages →
    gateway.KnowsOnly (gateway.keyOf a) w → (gateway.createTask crm b).run w = .ok outcome w' →
    outcome.reused = false

section Keys

variable {sha256 : Sha256} {a b : CrmTaskRequest}

/-- The same content, or a line break that moved. -/
theorem key_eq_iff_of_injective (hinj : Function.Injective sha256.hexdigest) :
    computeTaskIdempotencyKey sha256 a = computeTaskIdempotencyKey sha256 b ↔
      SameContent a b ∨ LineMoved a b ∨ LineMoved b a := by
  have hline : ∀ task : CrmTaskRequest, task.title.strip ++ "\n".toList ++ task.description.strip =
      task.title.strip ++ '\n' :: task.description.strip := fun task => List.append_assoc _ _ _
  unfold computeTaskIdempotencyKey
  rw [hinj.eq_iff, hline, hline, Separator.separated_eq_iff]
  rfl

/-- A line break that moved changes the title. -/
theorem LineMoved.not_sameContent (h : LineMoved a b) : ¬ SameContent a b := by
  intro hsame
  have hlt := Separator.Later.length_lt h
  rw [hsame.1] at hlt
  exact lt_irrefl _ hlt

theorem SameContent.symm (h : SameContent a b) : SameContent b a := ⟨h.1.symm, h.2.symm⟩

/-- **Which tasks have different keys**: those with another title or another description, unless one
is the other with a line break that moved from the description to the title. -/
theorem tellsApart_iff (hinj : Function.Injective sha256.hexdigest) (a b : CrmTaskRequest) :
    TellsApart sha256 a b ↔ ¬ LineMoved a b ∧ ¬ LineMoved b a := by
  have hkeys := key_eq_iff_of_injective hinj (a := a) (b := b)
  constructor
  · intro h
    constructor
    · intro hmoved
      exact hmoved.not_sameContent (h.key_eq_iff.mp (hkeys.mpr (Or.inr (Or.inl hmoved))))
    · intro hmoved
      have hsame := h.key_eq_iff.mp (hkeys.mpr (Or.inr (Or.inr hmoved)))
      exact hmoved.not_sameContent hsame.symm
  · rintro ⟨hab, hba⟩
    have hiff : computeTaskIdempotencyKey sha256 a = computeTaskIdempotencyKey sha256 b ↔
        SameContent a b := by
      rw [hkeys, or_iff_left]
      rintro (h | h)
      · exact hab h
      · exact hba h
    refine ⟨hiff, ?_⟩
    intro hother σ gateway crm w w' outcome hsha hserves hknows hrun
    have hkey : gateway.keyOf b ≠ gateway.keyOf a := by
      intro heq
      rw [keyOf, keyOf, hsha] at heq
      exact hother (hiff.mp heq.symm)
    exact gateway.reused_of_knowsOnly hserves hkey hknows hrun

end Keys

/-! ### A line break that moves -/

/-- The characters of a text in seven digits each. -/
def digits (text : Str) : Str := text.flatMap fun c => padded 7 c.toNat

theorem mem_of_mem_padded {width n : ℕ} {c : Char} (h : c ∈ padded width n) :
    c ∈ "0123456789abcdef".toList := by
  induction width generalizing n with
  | zero => cases h
  | succ width ih =>
    rw [padded, List.mem_append, List.mem_singleton] at h
    rcases h with h | rfl
    · exact ih h
    · have hall : ∀ d < 10, digit d ∈ "0123456789abcdef".toList := by decide
      exact hall _ (Nat.mod_lt n (by omega))

theorem length_digits (text : Str) : (digits text).length = 7 * text.length := by
  induction text with
  | nil => rfl
  | cons c text ih =>
    rw [digits, List.flatMap_cons, List.length_append, length_padded, List.length_cons]
    have hrest : (text.flatMap fun c => padded 7 c.toNat).length = 7 * text.length := ih
    omega

theorem digits_injective : Function.Injective digits := by
  intro text
  induction text with
  | nil =>
    intro other h
    have hlength := congrArg List.length h
    rw [length_digits, length_digits, List.length_nil] at hlength
    exact (List.length_eq_zero_iff.mp (by omega)).symm
  | cons c text ih =>
    intro other h
    cases other with
    | nil =>
      have hlength := congrArg List.length h
      rw [length_digits, length_digits, List.length_cons, List.length_nil] at hlength
      omega
    | cons c' other =>
      have hvalid : ∀ c : Char, c.toNat < 10 ^ 7 := by
        intro c
        have hvalid : c.toNat.isValidChar := c.valid
        rcases hvalid with hlow | ⟨-, hhigh⟩ <;> omega
      -- the first seven digits are the first character
      have hread := congrArg (readDigits 7 0) h
      unfold digits at hread
      rw [List.flatMap_cons, List.flatMap_cons, readDigits_padded (hvalid c),
        readDigits_padded (hvalid c')] at hread
      obtain ⟨hc, hrest⟩ := Prod.mk.inj (Option.some.inj hread)
      rw [ih hrest, Char.toNat_inj.mp (by omega : c.toNat = c'.toNat)]

/-- A digest without collisions, with the SHA-256 digest of one text. -/
def injectiveDigest : Sha256 where
  hexdigest text :=
    if text = "a\nb\nc".toList then
      "ea7fb08b7a2dc4619ffb7c7bb38d95a2047935fa165d71b12efd3852a2e6d0cc".toList
    else digits text
  hex text c hc := by
    split_ifs at hc
    · have hall : ("ea7fb08b7a2dc4619ffb7c7bb38d95a2047935fa165d71b12efd3852a2e6d0cc".toList.all
          fun c => c ∈ "0123456789abcdef".toList) = true := by decide
      exact of_decide_eq_true (List.all_eq_true.mp hall c hc)
    · obtain ⟨x, -, hx⟩ := List.mem_flatMap.mp hc
      exact mem_of_mem_padded hx

theorem injectiveDigest_injective : Function.Injective injectiveDigest.hexdigest := by
  -- a SHA-256 digest has 64 digits, which is no multiple of 7
  have hlength : ∀ text : Str,
      "ea7fb08b7a2dc4619ffb7c7bb38d95a2047935fa165d71b12efd3852a2e6d0cc".toList ≠ digits text := by
    intro text h
    have hlen := congrArg List.length h
    rw [length_digits] at hlen
    have h64 : "ea7fb08b7a2dc4619ffb7c7bb38d95a2047935fa165d71b12efd3852a2e6d0cc".toList.length =
      64 := by decide
    omega
  intro text other h
  dsimp only [injectiveDigest] at h
  split_ifs at h with htext hother hother
  · rw [htext, hother]
  · exact absurd h (hlength other)
  · exact absurd h.symm (hlength text)
  · exact digits_injective h

/-- A description of two lines. -/
def twoLinesTask : CrmTaskRequest := ⟨"a".toList, "b\nc".toList⟩

/-- The same with the first of them in the title. -/
def longTitleTask : CrmTaskRequest := ⟨"a\nb".toList, "c".toList⟩

theorem tellsApart_iff_twoLines : TellsApart injectiveDigest twoLinesTask longTitleTask ↔
    ¬ LineMoved twoLinesTask longTitleTask ∧ ¬ LineMoved longTitleTask twoLinesTask :=
  tellsApart_iff injectiveDigest_injective twoLinesTask longTitleTask

/-- The two tasks have the same key. -/
theorem not_tellsApart_lineMoved :
    ¬ ∀ (sha256 : Sha256), Function.Injective sha256.hexdigest →
      ∀ a b : CrmTaskRequest, TellsApart sha256 a b := by
  intro hall
  have h := hall injectiveDigest injectiveDigest_injective twoLinesTask longTitleTask
  have hsame : SameContent twoLinesTask longTitleTask := h.key_eq_iff.mp (by decide +kernel)
  exact absurd hsame.1 (by decide +kernel)

end MarketplacePipeline.AmoCrmGateway
