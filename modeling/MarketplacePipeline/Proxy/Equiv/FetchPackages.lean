import MarketplacePipeline.Proxy.Equiv.CheckPackages

/-!
# Which answers the check can handle

Failures of HTTP are caught, but nothing else that reading a body raises, except for a balance that
is no number.  So the check raises nothing but `ProxyQuotaExhaustedError` if and only if both bodies
are JSON that it can read (`onlyQuotaErrors_iff`).
-/

namespace MarketplacePipeline

/-- What reading a body raises; no handler of the check catches it. -/
def IsReadError (exc : PyError) : Prop := exc.kind = .value ∨ exc.kind = .exception

theorem IsReadError.not_httpError {exc : PyError} (h : IsReadError exc) :
    isHttpError exc = false := by
  unfold isHttpError
  rcases h with h | h <;> simp [h]

theorem IsReadError.not_quotaExhausted {exc : PyError} (h : IsReadError exc) :
    exc.kind ≠ .proxyQuotaExhausted := by
  rcases h with h | h <;> simp [h]

/-- The call returns, or raises `ProxyQuotaExhaustedError`. -/
def OnlyQuotaErrors (result : Except PyError Unit) : Prop :=
  ∀ exc, result = .error exc → exc.kind = .proxyQuotaExhausted

/-- What an answer raises, by where it is raised. -/
theorem raiseForStatus_spec (answer : QuotaAnswer) :
    match raiseForStatus answer.answer with
    | .error exc => isHttpError exc = true
    | .ok (.error exc) => IsReadError exc
    | .ok (.ok _) => True := by
  unfold raiseForStatus
  cases hanswer : answer.answer with
  | raised exc => exact answer.raised exc hanswer
  | response status body message =>
    dsimp only
    split_ifs
    · cases body with
      | error exc => exact answer.unread status exc message hanswer
      | ok payload => trivial
    · rfl

namespace ProxyMarketQuotaChecker

variable (text : JsonText) (checker : ProxyMarketQuotaChecker)

/-! ### The items -/

/-- A number or a text that `int` reads, or a value that is taken for zero. -/
def ReadsInt (value : Json) : Prop := value.truthy = false ∨ ∃ n, text.toInt value = .ok n

/-- The value of a field of an item, or `None`. -/
def fieldOf (fields : List (Str × Json)) (key : String) : Json :=
  (fields.lookup key.toList).getD .null

/-- An item that is a JSON object whose numbers can be read. -/
def ItemReadable (item : Json) : Prop :=
  ∃ fields, item = .dict fields ∧ ReadsInt text (fieldOf fields "total") ∧
    ReadsInt text (fieldOf fields "used") ∧ ReadsInt text (fieldOf fields "id")

theorem isReadError_of_toInt {value : Json} {exc : PyError} (h : text.toInt value = .error exc) :
    IsReadError exc := by
  unfold JsonText.toInt at h
  cases value with
  | float repr =>
    dsimp only at h
    unfold PyFloat.toInt at h
    cases hfloat : Number.floatOfRepr repr <;> rw [hfloat] at h <;> cases h
    · exact Or.inl rfl
    · exact Or.inr rfl
  | str s =>
    dsimp only at h
    cases hread : Number.readInt s with
    | none =>
      rw [hread] at h
      cases h
      exact Or.inl rfl
    | some digits =>
      rw [hread] at h
      dsimp only at h
      split_ifs at h
      cases h
      exact Or.inl rfl
  | bool b => cases h
  | int n => cases h
  | _ =>
    cases h
    exact Or.inr rfl

theorem intField_returnsIff (fields : List (Str × Json)) (key : String) :
    ReturnsIff IsReadError (intField text key (.dict fields))
      (ReadsInt text (fieldOf fields key)) := by
  show ReturnsIff IsReadError (text.toInt (orElse (fieldOf fields key) (.int 0))) _
  unfold orElse ReadsInt
  cases (fieldOf fields key).truthy with
  | true =>
    simp only [if_true, Bool.true_eq_false, false_or]
    exact ⟨Iff.rfl, fun exc h => isReadError_of_toInt text h⟩
  | false => exact (ReturnsIff.ok 0).congr (by simp)

theorem packageOf_returnsIff (item : Json) :
    ReturnsIff IsReadError (packageOf text item) (ItemReadable text item) := by
  cases item with
  | dict fields =>
    have htotal := intField_returnsIff text fields "total"
    have hused := intField_returnsIff text fields "used"
    have hid := intField_returnsIff text fields "id"
    have hreads : ReturnsIff IsReadError (packageOf text (.dict fields))
        (ReadsInt text (fieldOf fields "total") ∧ ReadsInt text (fieldOf fields "used") ∧
          ReadsInt text (fieldOf fields "id")) := by
      refine htotal.bind fun total _ => hused.bind fun used _ => ?_
      exact (hid.bind fun packageId _ => ReturnsIff.ok _).congr (and_iff_left trivial)
    refine hreads.congr ?_
    unfold ItemReadable
    simp
  | _ =>
    refine (ReturnsIff.error ?_).congr (iff_of_false id ?_)
    · exact Or.inr rfl
    · rintro ⟨fields, h, -⟩
      cases h

/-- `int(value or 0)`, if it can be read. -/
def intOf (value : Json) : ℤ := ((text.toInt (orElse value (.int 0))).toOption).getD 0

/-- The package of an item that can be read. -/
def readItem : Json → ProxyPackageQuota
  | .dict fields =>
    { packageId := intOf text (fieldOf fields "id")
      name := text.str (orElse (fieldOf fields "name") (.str "package".toList))
      totalBytes := intOf text (fieldOf fields "total")
      usedBytes := intOf text (fieldOf fields "used")
      isActive := ((fields.lookup "is_active".toList).getD (.bool true)).truthy }
  | _ => ⟨0, [], 0, 0, false⟩

theorem intOf_of_intField {fields : List (Str × Json)} {key : String} {n : ℤ}
    (h : intField text key (.dict fields) = .ok n) : intOf text (fieldOf fields key) = n := by
  have hint : text.toInt (orElse (fieldOf fields key) (.int 0)) = .ok n := h
  rw [intOf, hint]
  rfl

theorem eq_readItem_of_packageOf (item : Json) (package : ProxyPackageQuota)
    (h : packageOf text item = .ok package) : package = readItem text item := by
  cases item with
  | dict fields =>
    obtain ⟨total, htotal, h⟩ := bind_eq_ok_iff.mp h
    obtain ⟨used, hused, h⟩ := bind_eq_ok_iff.mp h
    obtain ⟨packageId, hid, h⟩ := bind_eq_ok_iff.mp h
    cases h
    rw [readItem, intOf_of_intField text htotal, intOf_of_intField text hused,
      intOf_of_intField text hid]
    rfl
  | _ => cases h

/-- The items of the body, if it is a JSON object with a list of them: an empty text or object has
no items. -/
def itemsOf : Json → Option (List Json)
  | .dict fields =>
    match (fields.lookup "data".toList).getD (.list []) with
    | .list items => some items
    | .str [] => some []
    | .dict [] => some []
    | _ => none
  | _ => none

/-- A body that `_fetch_packages` can read. -/
def BodyReadable (body : Except PyError Json) : Prop :=
  ∃ payload items, body = .ok payload ∧ itemsOf payload = some items ∧
    ∀ item ∈ items, ItemReadable text item

/-! ### The two fetches -/

/-- What comes back for the first page of the packages. -/
def packagesAnswer : QuotaAnswer :=
  checker.get checker.packagesUrl [("page".toList, 1), ("perPage".toList, packagesPageSize)]

def balanceAnswer : QuotaAnswer := checker.get checker.balanceUrl []

/-- The keys of an object and the characters of a text are no items. -/
theorem not_itemReadable_str (s : Str) : ¬ ItemReadable text (.str s) := by
  rintro ⟨fields, h, -⟩
  cases h

theorem iter_bind_returnsIff (data : Json) :
    ReturnsIff IsReadError (data.iter >>= fun items => items.mapM (packageOf text))
      (∃ items, data.iter = .ok items ∧ ∀ item ∈ items, ItemReadable text item) := by
  cases hiter : data.iter with
  | ok items =>
    have hitems := ReturnsIff.mapM items fun item _ => packageOf_returnsIff text item
    exact hitems.congr (by simp)
  | error exc =>
    refine (ReturnsIff.error ?_).congr (iff_of_false id (by simp))
    unfold Json.iter at hiter
    cases data with
    | list items => cases hiter
    | dict fields => cases hiter
    | str s => cases hiter
    | _ =>
      cases hiter
      exact Or.inr rfl

theorem iter_readable_iff (fields : List (Str × Json)) (items : List Json) :
    (((fields.lookup "data".toList).getD (.list [])).iter = .ok items ∧
        ∀ item ∈ items, ItemReadable text item) ↔
      itemsOf (.dict fields) = some items ∧ ∀ item ∈ items, ItemReadable text item := by
  unfold itemsOf
  dsimp only
  cases (fields.lookup "data".toList).getD (.list []) with
  | list items' => simp [Json.iter]
  | str s =>
    cases s with
    | nil => simp [Json.iter]
    | cons c s =>
      refine iff_of_false ?_ (by simp)
      rintro ⟨hiter, hall⟩
      cases hiter
      exact not_itemReadable_str text [c] (hall _ List.mem_cons_self)
  | dict data =>
    cases data with
    | nil => simp [Json.iter]
    | cons field data =>
      refine iff_of_false ?_ (by simp)
      rintro ⟨hiter, hall⟩
      cases hiter
      exact not_itemReadable_str text field.1 (hall _ List.mem_cons_self)
  | _ => simp [Json.iter]

variable {text checker} {body : Except PyError Json}

variable (text) in
/-- `_fetch_packages` reads the body of a response, or raises. -/
theorem fetchPackages_returnsIff (h : raiseForStatus checker.packagesAnswer.answer = .ok body) :
    ReturnsIff IsReadError (fetchPackages text checker) (BodyReadable text body) := by
  have hspec := raiseForStatus_spec checker.packagesAnswer
  unfold fetchPackages
  rw [← packagesAnswer, h]
  show ReturnsIff IsReadError (body >>= _) _
  rw [h] at hspec
  cases body with
  | error exc =>
    refine (ReturnsIff.error hspec).congr (iff_of_false id ?_)
    rintro ⟨payload, items, heq, -⟩
    cases heq
  | ok payload =>
    cases payload with
    | dict fields =>
      refine (iter_bind_returnsIff text _).congr ?_
      simp only [iter_readable_iff text fields]
      unfold BodyReadable
      simp
    | _ =>
      refine (ReturnsIff.error ?_).congr (iff_of_false id ?_)
      · exact Or.inr rfl
      · rintro ⟨payload, items, heq, hitems, -⟩
        cases heq
        cases hitems

/-- The packages are those of the items. -/
theorem fetchPackages_eq {payload : Json} {items : List Json}
    (h : raiseForStatus checker.packagesAnswer.answer = .ok (.ok payload))
    (hitems : itemsOf payload = some items) (hreadable : ∀ item ∈ items, ItemReadable text item) :
    fetchPackages text checker = .ok (items.map (readItem text)) := by
  obtain ⟨packages, hpackages⟩ :=
    (fetchPackages_returnsIff text h).1.mpr ⟨payload, items, rfl, hitems, hreadable⟩
  cases payload with
  | dict fields =>
    have hiter := (iter_readable_iff text fields items).mpr ⟨hitems, hreadable⟩
    have hmap : fetchPackages text checker = items.mapM (packageOf text) := by
      unfold fetchPackages
      rw [← packagesAnswer, h]
      show ((fields.lookup "data".toList).getD (.list [])).iter >>= _ = _
      rw [hiter.1]
      rfl
    rw [hpackages, eq_map_of_mapM (eq_readItem_of_packageOf text) (hmap.symm.trans hpackages)]
  | _ => cases hitems

/-- A body that `_fetch_balance` can read: the balance is no integer that is too large for a
float. -/
def BalanceReadable (body : Except PyError Json) : Prop :=
  ∃ fields, body = .ok (.dict fields) ∧ ∀ n, fields.lookup "balance".toList = some (.int n) →
    |(n : ℚ)| < PyFloat.overflowThreshold

theorem balanceReadable_dict_iff (fields : List (Str × Json)) :
    BalanceReadable (.ok (.dict fields)) ↔
      ∀ n, (fields.lookup "balance".toList).getD (.int 0) = .int n →
        |(n : ℚ)| < PyFloat.overflowThreshold := by
  constructor
  · rintro ⟨fields', heq, hall⟩ n hn
    cases heq
    cases hlookup : fields.lookup "balance".toList with
    | none =>
      -- a missing balance is taken for zero
      rw [hlookup] at hn
      cases hn
      have hthreshold := PyFloat.le_overflowThreshold
      rw [Int.cast_zero, abs_zero]
      linarith
    | some value =>
      rw [hlookup] at hn
      exact hall n (hlookup.trans (congrArg some hn))
  · intro hall
    refine ⟨fields, rfl, fun n hn => ?_⟩
    rw [hn] at hall
    exact hall n rfl

variable (text) in
theorem toFloat_returnsIff (value : Json) :
    ReturnsIff IsReadError
      (match text.toFloat value with
      | .ok balance => .ok (some balance)
      | .error (.typeError _) => .ok none
      | .error (.valueError _) => .ok none
      | .error (.overflowError text) => .error ⟨.exception, text⟩)
      (∀ n, value = .int n → |(n : ℚ)| < PyFloat.overflowThreshold) := by
  cases value with
  | int n =>
    have hoverflow := PyFloat.finite?_ofRat_eq_none_iff n
    unfold JsonText.toFloat
    dsimp only
    cases hfinite : (PyFloat.ofRat n).finite? with
    | none =>
      refine (ReturnsIff.error ?_).congr (iff_of_false id fun hall => ?_)
      · exact Or.inr rfl
      · exact absurd (hoverflow.mp hfinite) (not_le.mpr (hall n rfl))
    | some x =>
      refine (ReturnsIff.ok _).congr (iff_of_true trivial fun m hm => ?_)
      cases hm
      exact lt_of_not_ge fun hle => by cases hfinite.symm.trans (hoverflow.mpr hle)
  | str s =>
    unfold JsonText.toFloat
    dsimp only
    cases Number.readFloat s with
    | none => exact (ReturnsIff.ok _).congr (iff_of_true trivial (by simp))
    | some x => exact (ReturnsIff.ok _).congr (iff_of_true trivial (by simp))
  | _ => exact (ReturnsIff.ok _).congr (iff_of_true trivial (by simp))

variable (checker) in
/-- The balance can be read, if it comes. -/
def HandlesBalance : Prop :=
  ∀ body, raiseForStatus checker.balanceAnswer.answer = .ok body → BalanceReadable body

variable (text checker) in
theorem fetchBalance_returnsIff :
    ReturnsIff IsReadError (fetchBalance text checker) checker.HandlesBalance := by
  have hspec := raiseForStatus_spec checker.balanceAnswer
  unfold fetchBalance HandlesBalance
  rw [← balanceAnswer]
  cases h : raiseForStatus checker.balanceAnswer.answer with
  | error exc =>
    rw [h] at hspec
    dsimp only
    rw [if_pos hspec]
    exact (ReturnsIff.ok none).congr (iff_of_true trivial (by simp))
  | ok body =>
    rw [h] at hspec
    simp only [Except.ok.injEq, forall_eq']
    cases body with
    | error exc =>
      -- `response.json()` is outside of both handlers
      refine (ReturnsIff.error hspec).congr (iff_of_false id ?_)
      rintro ⟨fields, heq, -⟩
      cases heq
    | ok payload =>
      cases payload with
      | dict fields =>
        have hfloat := toFloat_returnsIff text
          ((fields.lookup "balance".toList).getD (.int 0))
        exact hfloat.congr (balanceReadable_dict_iff fields).symm
      | _ =>
        refine (ReturnsIff.error ?_).congr (iff_of_false id ?_)
        · exact Or.inr rfl
        · rintro ⟨fields, heq, -⟩
          cases heq

/-! ### The check -/

variable (text checker) in
/-- The check can handle its answers: the packages, if they come, are in a JSON object, with numbers
that can be read; if none of them is available, their sizes can be quoted, and otherwise the check
can handle the balance. -/
def Handles : Prop :=
  ∀ body, raiseForStatus checker.packagesAnswer.answer = .ok body →
    ∃ payload items, body = .ok payload ∧ itemsOf payload = some items ∧
      (∀ item ∈ items, ItemReadable text item) ∧
      ((∀ package ∈ items.map (readItem text), ¬ checker.Available package) →
        ∀ package ∈ items.map (readItem text), package.isActive = true → package.Printable) ∧
      ((∃ package ∈ items.map (readItem text), checker.Available package) →
        checker.HandlesBalance)

/-- The packages were read. -/
theorem onlyQuotaErrors_checkPackages_iff (packages : List ProxyPackageQuota) :
    OnlyQuotaErrors (checker.checkPackages packages (fetchBalance text checker)) ↔
      ((∀ package ∈ packages, ¬ checker.Available package) →
        ∀ package ∈ packages, package.isActive = true → package.Printable) ∧
      ((∃ package ∈ packages, checker.Available package) → checker.HandlesBalance) := by
  have hbalance := fetchBalance_returnsIff text checker
  by_cases havailable : ∃ package ∈ packages, checker.Available package
  · obtain ⟨package, hmem, h⟩ := havailable
    rw [checkPackages_of_available hmem h,
      and_iff_right fun hnone => absurd h (hnone package hmem),
      forall_prop_of_true ⟨package, hmem, h⟩, ← hbalance.1]
    cases hfetch : fetchBalance text checker with
    | ok balance => exact iff_of_true (fun exc herror => by cases herror) ⟨balance, rfl⟩
    | error exc =>
      refine iff_of_false (fun hall => ?_) (by simp)
      exact (hbalance.2 exc hfetch).not_quotaExhausted (hall exc rfl)
  · have hnone : ∀ package ∈ packages, ¬ checker.Available package := by
      intro package hmem h
      exact havailable ⟨package, hmem, h⟩
    obtain ⟨exc, herror, hkind⟩ := checkPackages_of_exhausted hnone (fetchBalance text checker)
    rw [herror, forall_prop_of_true hnone, and_iff_left fun h => absurd h havailable, ← hkind]
    exact ⟨fun hall => hall exc rfl, fun h exc' heq => by cases heq; exact h⟩

variable (text checker) in
/-- **When the check raises nothing but `ProxyQuotaExhaustedError`**: if and only if it can handle
the answers of both endpoints. -/
theorem onlyQuotaErrors_iff :
    OnlyQuotaErrors (checkQuotaAvailable text checker) ↔ Handles text checker := by
  unfold checkQuotaAvailable Handles
  cases hresponse : raiseForStatus checker.packagesAnswer.answer with
  | error exc =>
    have hfetch : fetchPackages text checker = .error exc := by
      unfold fetchPackages
      rw [← packagesAnswer, hresponse]
      rfl
    have hspec := raiseForStatus_spec checker.packagesAnswer
    rw [hresponse] at hspec
    rw [hfetch]
    dsimp only
    rw [if_pos hspec]
    exact iff_of_true (fun exc herror => by cases herror) (fun body hbody => by cases hbody)
  | ok body =>
    simp only [Except.ok.injEq, forall_eq']
    by_cases hreadable : BodyReadable text body
    · -- the packages are read, and decide with the balance
      obtain ⟨payload, items, rfl, hitems, hall⟩ := hreadable
      rw [fetchPackages_eq hresponse hitems hall]
      dsimp only
      rw [onlyQuotaErrors_checkPackages_iff]
      constructor
      · exact fun h => ⟨payload, items, rfl, hitems, hall, h⟩
      · rintro ⟨payload', items', heq, hitems', -, h⟩
        cases heq
        cases hitems.symm.trans hitems'
        exact h
    · -- what reading the packages raises is no `httpx.HTTPError`, so it escapes
      have hreturns := fetchPackages_returnsIff text hresponse
      cases hfetch : fetchPackages text checker with
      | ok packages => exact absurd (hreturns.1.mp ⟨packages, hfetch⟩) hreadable
      | error exc =>
        have hread := hreturns.2 exc hfetch
        dsimp only
        rw [hread.not_httpError, if_neg (by simp)]
        refine iff_of_false (fun h => hread.not_quotaExhausted (h exc rfl)) ?_
        rintro ⟨payload, items, heq, hitems, hall, -⟩
        exact hreadable ⟨payload, items, heq, hitems, hall⟩

/-! ### A page that is not JSON -/

/-- A response whose body is read so. -/
def respond (status : ℕ) (body : Except PyError Json)
    (h : ∀ exc, body = .error exc → exc.kind = .value ∨ exc.kind = .exception) : QuotaAnswer where
  answer := .response status body []
  raised exc h := by cases h
  unread status' exc message heq := by
    cases heq
    exact h exc rfl

/-- `json`, which reads no text; a value is written as nothing. -/
def noJson : JsonText where
  loads _ := .error ⟨.value, "Expecting value".toList⟩
  repr _ := []
  loads_isException text exc h := by
    cases h
    rfl

/-- The service answers with an HTML page. -/
def pageChecker : ProxyMarketQuotaChecker where
  apiKey := "key".toList
  get _ _ := respond 200
    (.error ⟨.value, "Expecting value: line 1 column 1 (char 0)".toList⟩) fun exc h => by
      cases h
      exact Or.inl rfl

/-- The `ValueError` of a page that is not JSON fails the submission. -/
theorem not_onlyQuotaErrors_page :
    ¬ OnlyQuotaErrors (checkQuotaAvailable noJson pageChecker) := by
  intro h
  cases h ⟨.value, "Expecting value: line 1 column 1 (char 0)".toList⟩ rfl

end ProxyMarketQuotaChecker

end MarketplacePipeline
