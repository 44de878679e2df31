import MarketplacePipeline.Python.Equiv.Number
import MarketplacePipeline.Redis.Database

/-!
# What the commands do to what is live

Everything that a command answers depends on the value of its key that is live at its time, and from
then on it changes what is live under this key only (`Changes`).  So a database is, for the commands
that are still to come, what is live in it.
-/

namespace MarketplacePipeline.Redis

open Database JsonDumps

/-- From `time` on, `key` is live with the values `f`, and the other keys as before. -/
def Changes (time : ℚ) (key : Str) (f : ℚ → Option Value) (db db' : Database) : Prop :=
  ∀ t, time ≤ t → ∀ k, db'.live t k = if k = key then f t else db.live t k

variable {time t : ℚ} {key k : Str} {db : Database}

/-! ### Entries -/

theorem Entry.expired_mono {e : Entry} (h : e.expired time = true) (ht : time ≤ t) :
    e.expired t = true := by
  unfold Entry.expired at h ⊢
  cases hexpires : e.expiresAt with
  | none =>
    rw [hexpires] at h
    cases h
  | some end_ =>
    rw [hexpires] at h
    simp only [Option.any_some, decide_eq_true_eq] at h ⊢
    exact h.trans_le ht

theorem live_of_none (h : db key = none) (t : ℚ) : db.live t key = none := by
  unfold live
  rw [h]
  rfl

theorem live_of_some {e : Entry} (h : db key = some e) (t : ℚ) :
    db.live t key = if e.expired t then none else some e.value := by
  unfold live
  rw [h]
  cases hexpired : e.expired t <;> simp [Option.filter, hexpired]

theorem live_update (db : Database) (key : Str) (e : Option Entry) (t : ℚ) (k : Str) :
    live t k (Function.update db key e) =
      if k = key then (e.filter fun e => !e.expired t).map Entry.value else db.live t k := by
  unfold live
  rw [Function.update_apply]
  split_ifs <;> rfl

theorem Changes.refl (time : ℚ) (key : Str) (db : Database) :
    Changes time key (fun t => db.live t key) db db := by
  intro t _ k
  split_ifs with hk
  · rw [hk]
  · rfl

theorem changes_update (time : ℚ) (key : Str) (db : Database) (e : Option Entry) :
    Changes time key (fun t => (e.filter fun e => !e.expired t).map Entry.value) db
      (Function.update db key e) :=
  fun t _ k => live_update db key e t k

theorem Changes.trans {f f' : ℚ → Option Value} {db' db'' : Database}
    (h : Changes time key f db db') (h' : Changes time key f' db' db'') :
    Changes time key f' db db'' := by
  intro t ht k
  rw [h' t ht k]
  split_ifs with hk
  · rfl
  · rw [h t ht k, if_neg hk]

theorem Changes.live_self {f : ℚ → Option Value} {db' : Database} (h : Changes time key f db db')
    (ht : time ≤ t) : db'.live t key = f t := by
  rw [h t ht key, if_pos rfl]

theorem Changes.congr {f f' : ℚ → Option Value} {db' : Database} (h : Changes time key f db db')
    (hf : ∀ t, time ≤ t → f t = f' t) : Changes time key f' db db' := by
  intro t ht k
  rw [h t ht k, hf t ht]

/-! ### The check of the time -/

/-- What a command finds under its key after the check of the time. -/
theorem expireIfNeeded_cases (time : ℚ) (key : Str) (db : Database) :
    (db.expireIfNeeded time key key = none ∧ ∀ t, time ≤ t → db.live t key = none) ∨
      ∃ e, db.expireIfNeeded time key key = some e ∧ db key = some e ∧
        e.expired time = false := by
  unfold expireIfNeeded
  cases hentry : db key with
  | none => exact .inl ⟨by rw [if_neg (by simp), hentry], fun t _ => live_of_none hentry t⟩
  | some e =>
    cases hexpired : e.expired time with
    | false => exact .inr ⟨e, by rw [if_neg (by simp [hexpired]), hentry], rfl, hexpired⟩
    | true =>
      refine .inl ⟨by rw [if_pos (by simp [hexpired]), Function.update_self], fun t ht => ?_⟩
      rw [live_of_some hentry, if_pos (Entry.expired_mono hexpired ht)]

theorem changes_expireIfNeeded (time : ℚ) (key : Str) (db : Database) :
    Changes time key (fun t => db.live t key) db (db.expireIfNeeded time key) := by
  unfold expireIfNeeded
  split_ifs with hany
  · obtain ⟨e, hentry, hexpired⟩ := (Option.any_eq_true _ _).mp hany
    apply (changes_update time key db none).congr
    intro t ht
    show none = db.live t key
    rw [live_of_some hentry, if_pos (Entry.expired_mono hexpired ht)]
  · exact Changes.refl time key db

/-- The value that a command finds is the one that is live. -/
theorem value_expireIfNeeded (time : ℚ) (key : Str) (db : Database) :
    (db.expireIfNeeded time key key).map Entry.value = db.live time key := by
  obtain ⟨hnone, hlive⟩ | ⟨e, hsome, hentry, hexpired⟩ := expireIfNeeded_cases time key db
  · rw [hnone, hlive time le_rfl, Option.map_none]
  · rw [hsome, live_of_some hentry, hexpired, Option.map_some]
    rfl

/-- A new value is live as long as the old one would be, or for ever if there was none. -/
theorem changes_replace (time : ℚ) (key : Str) (db : Database) (value : Value) :
    Changes time key
      (fun t => if db.live time key = none then some value else (db.live t key).map fun _ => value)
      db ((db.expireIfNeeded time key).replace key value) := by
  apply (changes_expireIfNeeded time key db).trans
  apply (changes_update time key _ _).congr
  intro t ht
  show _ = if db.live time key = none then some value else (db.live t key).map fun _ => value
  obtain ⟨hnone, hlive⟩ | ⟨e, hsome, hentry, hexpired⟩ := expireIfNeeded_cases time key db
  · rw [hnone, if_pos (hlive time le_rfl)]
    rfl
  · rw [hsome, live_of_some hentry, live_of_some hentry, hexpired]
    have hsame : Entry.expired ⟨value, e.expiresAt⟩ t = e.expired t := rfl
    cases ht : e.expired t <;> simp [Option.filter, hsame, ht]

/-! ### Other keys -/

/-- Only `key` changes. -/
def Touches (time : ℚ) (key : Str) (db db' : Database) : Prop := ∃ f, Changes time key f db db'

theorem Touches.trans {db' db'' : Database} (h : Touches time key db db')
    (h' : Touches time key db' db'') : Touches time key db db'' := by
  obtain ⟨_, h⟩ := h
  obtain ⟨f, h'⟩ := h'
  exact ⟨f, h.trans h'⟩

theorem touches_update (time : ℚ) (key : Str) (db : Database) (e : Option Entry) :
    Touches time key db (Function.update db key e) := ⟨_, changes_update time key db e⟩

theorem touches_expireIfNeeded (time : ℚ) (key : Str) (db : Database) :
    Touches time key db (db.expireIfNeeded time key) := ⟨_, changes_expireIfNeeded time key db⟩

theorem touches_get (time : ℚ) (key : Str) (db : Database) :
    Touches time key db (get time key db).2 := by
  unfold get
  dsimp only
  split <;> exact touches_expireIfNeeded time key db

theorem touches_setNxEx (time : ℚ) (key text : Str) (seconds : ℕ) (db : Database) :
    Touches time key db (setNxEx time key text seconds db).2 := by
  unfold setNxEx
  dsimp only
  split
  · exact (touches_expireIfNeeded time key db).trans (touches_update ..)
  · exact touches_expireIfNeeded time key db

theorem touches_incr (time : ℚ) (key : Str) (db : Database) :
    Touches time key db (incr time key db).2 := by
  have hcheck := touches_expireIfNeeded time key db
  unfold incr
  dsimp only
  split
  · exact hcheck.trans (touches_update ..)
  · split
    · exact hcheck
    · split_ifs
      · exact hcheck
      · exact hcheck.trans (touches_update ..)
  · exact hcheck

theorem touches_onSortedSet (time : ℚ) (key : Str)
    (change : Finset (Str × ℚ) → Finset (Str × ℚ)) (db : Database) :
    Touches time key db (onSortedSet time key change db).2 := by
  have hcheck := touches_expireIfNeeded time key db
  unfold onSortedSet
  dsimp only
  split
  · exact hcheck
  · unfold store
    split_ifs
    · exact hcheck.trans (touches_update ..)
    · exact hcheck.trans (touches_update ..)

theorem touches_expire (time : ℚ) (key : Str) (seconds : ℕ) (db : Database) :
    Touches time key db (expire time key seconds db).2 := by
  have hcheck := touches_expireIfNeeded time key db
  unfold expire
  dsimp only
  split
  · exact hcheck
  · exact hcheck.trans (touches_update ..)

/-! ### Commands on texts -/

theorem get_of_live {text : Option Str} (h : db.live time key = text.map .string) :
    get time key db = (.ok text, db.expireIfNeeded time key) := by
  unfold get
  dsimp only
  rw [value_expireIfNeeded, h]
  cases text <;> rfl

theorem changes_set (time : ℚ) (key text : Str) (db : Database) :
    Changes time key (fun _ => some (.string text)) db (set key text db) :=
  changes_update time key db _

theorem setNxEx_of_none {text : Str} {seconds : ℕ} (h : db.live time key = none) :
    (setNxEx time key text seconds db).1 = true ∧
      Changes time key (fun t => if t ≤ time + seconds then some (.string text) else none) db
        (setNxEx time key text seconds db).2 := by
  have hvalue := value_expireIfNeeded time key db
  rw [h, Option.map_eq_none_iff] at hvalue
  unfold setNxEx
  dsimp only
  rw [hvalue]
  refine ⟨rfl, (changes_expireIfNeeded time key db).trans
    ((changes_update time key _ _).congr fun t _ => ?_)⟩
  show ((some (⟨.string text, some (time + seconds)⟩ : Entry)).filter _).map Entry.value = _
  by_cases hle : t ≤ time + seconds
  · rw [if_pos hle]
    simp [Option.filter, Entry.expired, hle]
  · rw [if_neg hle]
    simp [Option.filter, Entry.expired, lt_of_not_ge hle]

theorem setNxEx_of_some {value : Value} {text : Str} {seconds : ℕ}
    (h : db.live time key = some value) :
    setNxEx time key text seconds db = (false, db.expireIfNeeded time key) := by
  have hvalue := value_expireIfNeeded time key db
  rw [h] at hvalue
  obtain ⟨e, hentry, -⟩ := Option.map_eq_some_iff.mp hvalue
  unfold setNxEx
  dsimp only
  rw [hentry]

/-! ### Commands on sorted sets -/

/-- The value of a sorted set: one without members does not exist. -/
def ofMembers (entries : Finset (Str × ℚ)) : Option Value :=
  if entries = ∅ then none else some (.sortedSet entries)

theorem ofMembers_eq_none {entries : Finset (Str × ℚ)} :
    ofMembers entries = none ↔ entries = ∅ := by
  unfold ofMembers
  split_ifs with h <;> simp [h]

theorem members_expireIfNeeded {entries : Finset (Str × ℚ)}
    (h : db.live time key = ofMembers entries) :
    (db.expireIfNeeded time key).members key = .ok entries := by
  unfold members
  rw [value_expireIfNeeded, h]
  unfold ofMembers
  split_ifs with hempty
  · rw [hempty]
  · rfl

/-- A sorted set that a command changes expires when it did before, and never if it is new. -/
theorem onSortedSet_of_live {entries : Finset (Str × ℚ)}
    {change : Finset (Str × ℚ) → Finset (Str × ℚ)} (h : db.live time key = ofMembers entries) :
    (onSortedSet time key change db).1 = .ok () ∧
      Changes time key
        (fun t => if entries = ∅ then ofMembers (change entries)
          else (db.live t key).bind fun _ => ofMembers (change entries)) db
        (onSortedSet time key change db).2 := by
  unfold onSortedSet
  dsimp only
  rw [members_expireIfNeeded h]
  refine ⟨rfl, ?_⟩
  show Changes time key _ db ((db.expireIfNeeded time key).store key (change entries))
  unfold store
  -- an empty set is no value, so the key may have to be deleted or created anew
  split_ifs with hempty hchange hchange
  · apply (changes_expireIfNeeded time key db).trans
    apply (changes_update time key _ none).congr
    intro t _
    rw [ofMembers, if_pos hchange]
    rfl
  · apply (changes_replace time key db _).congr
    intro t _
    show (if db.live time key = none then _ else _) = _
    rw [h, if_pos (ofMembers_eq_none.mpr hempty), ofMembers, if_neg hchange]
  · apply (changes_expireIfNeeded time key db).trans
    apply (changes_update time key _ none).congr
    intro t _
    rw [ofMembers, if_pos hchange]
    show none = _
    cases db.live t key <;> rfl
  · apply (changes_replace time key db _).congr
    intro t _
    show (if db.live time key = none then _ else _) = _
    rw [h, if_neg (ofMembers_eq_none.not.mpr hempty), ofMembers, if_neg hchange]
    cases db.live t key <;> rfl

/-- What a command that changes a sorted set leaves at once. -/
theorem live_onSortedSet {entries : Finset (Str × ℚ)}
    {change : Finset (Str × ℚ) → Finset (Str × ℚ)} (h : db.live time key = ofMembers entries) :
    (onSortedSet time key change db).2.live time key = ofMembers (change entries) := by
  rw [(onSortedSet_of_live h).2.live_self le_rfl, h]
  split_ifs with hempty
  · rfl
  · rw [ofMembers, if_neg hempty, Option.bind_some]

theorem zcard_of_live {entries : Finset (Str × ℚ)} (h : db.live time key = ofMembers entries) :
    zcard time key db = (.ok entries.card, db.expireIfNeeded time key) := by
  unfold zcard
  dsimp only
  rw [members_expireIfNeeded h]
  rfl

theorem changes_expire (time : ℚ) (key : Str) (seconds : ℕ) (db : Database) :
    Changes time key (fun t => if t ≤ time + seconds then db.live time key else none) db
      (expire time key seconds db).2 := by
  unfold expire
  dsimp only
  obtain ⟨hnone, hlive⟩ | ⟨e, hsome, hentry, hexpired⟩ := expireIfNeeded_cases time key db
  · rw [hnone]
    apply (changes_expireIfNeeded time key db).congr
    intro t ht
    show db.live t key = _
    rw [hlive t ht, hlive time le_rfl]
    split_ifs <;> rfl
  · rw [hsome]
    apply (changes_expireIfNeeded time key db).trans
    apply (changes_update time key _ _).congr
    intro t _
    rw [live_of_some hentry, hexpired]
    by_cases hle : t ≤ time + seconds
    · rw [if_pos hle]
      simp [Option.filter, Entry.expired, hle]
    · rw [if_neg hle]
      simp [Option.filter, Entry.expired, lt_of_not_ge hle]

/-! ### Counters -/

/-- The text of a counter that has been incremented `n` times. -/
def counterText (n : ℕ) : Option Str := if n = 0 then none else some (intText n)

/-- The value of such a counter. -/
def counterValue (n : ℕ) : Option Value := (counterText n).map .string

theorem readInteger_intText {n : ℤ} (hlow : -maxInteger - 1 ≤ n) (hhigh : n ≤ maxInteger) :
    readInteger (intText n) = some n := by
  unfold readInteger
  rw [Number.readInt_intText, Option.map_some]
  dsimp only
  rw [Number.ofDigits_toDigits, Number.signed_natAbs]
  simp [Option.filter, hlow, hhigh]

theorem readInteger_counter {n : ℕ} (h : n ≤ maxInteger) :
    readInteger (intText n) = some (n : ℤ) := by
  refine readInteger_intText ?_ h
  unfold maxInteger
  omega

/-- A counter that is incremented. -/
theorem incr_of_live {n : ℕ} (hn : n < maxInteger)
    (h : ∀ t, time ≤ t → db.live t key = counterValue n) :
    (incr time key db).1 = .ok (n + 1 : ℕ) ∧
      Changes time key (fun _ => counterValue (n + 1)) db (incr time key db).2 := by
  unfold incr
  dsimp only
  rw [value_expireIfNeeded, h time le_rfl]
  have hchanges : Changes time key (fun _ => counterValue (n + 1)) db
      ((db.expireIfNeeded time key).replace key (.string (intText (n + 1 : ℕ)))) := by
    apply (changes_replace time key db _).congr
    intro t ht
    show (if db.live time key = none then _ else _) = _
    rw [h time le_rfl, h t ht]
    unfold counterValue counterText
    split_ifs <;> simp_all
  by_cases hzero : n = 0
  · rw [hzero] at hchanges ⊢
    exact ⟨rfl, hchanges⟩
  · rw [counterValue, counterText, if_neg hzero]
    dsimp only [Option.map_some]
    rw [readInteger_counter hn.le]
    dsimp only
    rw [if_neg hn.ne]
    exact ⟨rfl, hchanges⟩

/-- A counter that is as large as Redis counts. -/
theorem incr_of_max {n : ℕ} (hn : n = maxInteger) (h : db.live time key = counterValue n) :
    incr time key db = (.error wouldOverflow, db.expireIfNeeded time key) := by
  have hzero : n ≠ 0 := by
    rintro rfl
    exact absurd hn (by decide)
  unfold incr
  dsimp only
  rw [value_expireIfNeeded, h, counterValue, counterText, if_neg hzero]
  dsimp only [Option.map_some]
  rw [readInteger_counter hn.le]
  dsimp only
  rw [if_pos hn]

end MarketplacePipeline.Redis
