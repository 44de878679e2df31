import MarketplacePipeline.Proxy.Equiv.FetchPackages

/-!
# The check of an account

The service lists the packages of an account page by page (`ServesAccount`), and the check reads the
first page only.  So it decides as the whole account does if and only if one of the first packages
is available, or none of the account (`quotaCorrect_iff`).
-/

namespace MarketplacePipeline.ProxyMarketQuotaChecker

variable (text : JsonText) (checker : ProxyMarketQuotaChecker)

/-- An item of the list stands for a package: it has its values in the fields that are read. -/
def Encodes (item : Json) (package : ProxyPackageQuota) : Prop :=
  ∃ fields, item = .dict fields ∧
    fields.lookup "id".toList = some (.int package.packageId) ∧
    fields.lookup "total".toList = some (.int package.totalBytes) ∧
    fields.lookup "used".toList = some (.int package.usedBytes) ∧
    fields.lookup "is_active".toList = some (.bool package.isActive) ∧
    ∃ name, fields.lookup "name".toList = some (.str name) ∧
      package.name = if name.isEmpty then "package".toList else name

/-- The packages on a page, from page 1 on. -/
def pageOf (account : List ProxyPackageQuota) (page perPage : ℕ) : List ProxyPackageQuota :=
  (account.drop ((page - 1) * perPage)).take perPage

/-- The service answers with the packages of an account, page by page. -/
def ServesAccount (account : List ProxyPackageQuota) : Prop :=
  ∀ page perPage, ∃ message fields items,
    (checker.get checker.packagesUrl [("page".toList, page), ("perPage".toList, perPage)]).answer =
        .response 200 (.ok (.dict fields)) message ∧
      fields.lookup "data".toList = some (.list items) ∧
      List.Forall₂ Encodes items (pageOf account page perPage)

/-- The check decides as the whole account does: it passes if and only if a package is available,
and raises `ProxyQuotaExhaustedError` otherwise. -/
structure QuotaCorrect (account : List ProxyPackageQuota) : Prop where
  passes_iff : checkQuotaAvailable text checker = .ok () ↔
    ∃ package ∈ account, checker.Available package
  raises : (¬ ∃ package ∈ account, checker.Available package) →
    ∃ text', checkQuotaAvailable text checker = .error ⟨.proxyQuotaExhausted, text'⟩

variable {text checker} {item : Json} {package : ProxyPackageQuota}

theorem Encodes.itemReadable (h : Encodes item package) : ItemReadable text item := by
  obtain ⟨fields, rfl, hid, htotal, hused, -⟩ := h
  have hread : ∀ (key : String) (n : ℤ), fields.lookup key.toList = some (.int n) →
      ReadsInt text (fieldOf fields key) := by
    intro key n hlookup
    rw [fieldOf, hlookup]
    exact Or.inr ⟨n, rfl⟩
  exact ⟨fields, rfl, hread _ _ htotal, hread _ _ hused, hread _ _ hid⟩

theorem Encodes.readItem_eq (h : Encodes item package) : readItem text item = package := by
  obtain ⟨fields, rfl, hid, htotal, hused, hactive, name, hname, heq⟩ := h
  have hint : ∀ (key : String) (n : ℤ), fields.lookup key.toList = some (.int n) →
      intOf text (fieldOf fields key) = n := by
    intro key n hlookup
    rw [fieldOf, hlookup, intOf]
    by_cases hn : n = 0
    · rw [hn]
      rfl
    · have htruthy : orElse ((some (Json.int n)).getD .null) (.int 0) = .int n := by
        simp [orElse, Json.truthy, hn]
      rw [htruthy]
      rfl
  have hname' : text.str (orElse (fieldOf fields "name") (.str "package".toList)) =
      package.name := by
    rw [fieldOf, hname, heq]
    cases name with
    | nil => rfl
    | cons c name => rfl
  rw [readItem, hint _ _ hid, hint _ _ htotal, hint _ _ hused, hname', hactive]
  rfl

variable (text) in
theorem items_of_encodes {items : List Json} {packages : List ProxyPackageQuota}
    (h : List.Forall₂ Encodes items packages) :
    (∀ item ∈ items, ItemReadable text item) ∧ items.map (readItem text) = packages := by
  induction h with
  | nil => exact ⟨by simp, rfl⟩
  | cons hitem _ ih =>
    rw [List.map_cons, hitem.readItem_eq, ih.2, List.forall_mem_cons]
    exact ⟨⟨hitem.itemReadable, ih.1⟩, rfl⟩

/-- The check fetches the first packages of the account. -/
theorem fetchPackages_of_serves {account : List ProxyPackageQuota}
    (h : checker.ServesAccount account) :
    fetchPackages text checker = .ok (account.take packagesPageSize) := by
  obtain ⟨message, fields, items, hanswer, hdata, hitems⟩ := h 1 packagesPageSize
  have hresponse : raiseForStatus checker.packagesAnswer.answer = .ok (.ok (.dict fields)) := by
    rw [packagesAnswer, hanswer]
    rfl
  have hlisted : itemsOf (.dict fields) = some items := by
    unfold itemsOf
    dsimp only
    rw [hdata]
    rfl
  obtain ⟨hreadable, hmap⟩ := items_of_encodes text hitems
  rw [fetchPackages_eq hresponse hlisted hreadable, hmap]
  rfl

variable (text) in
/-- What the check decides of the account. -/
theorem checkQuotaAvailable_of_serves {account : List ProxyPackageQuota}
    (h : checker.ServesAccount account) : checkQuotaAvailable text checker =
      checker.checkPackages (account.take packagesPageSize) (fetchBalance text checker) := by
  unfold checkQuotaAvailable
  rw [fetchPackages_of_serves h]

variable (text) in
/-- **When the check decides as the whole account does**: if and only if one of the first packages
is available, or none of the account is and the sizes of the first ones can be quoted. -/
theorem quotaCorrect_iff {account : List ProxyPackageQuota} (h : checker.ServesAccount account)
    (hbalance : checker.HandlesBalance) :
    QuotaCorrect text checker account ↔
      (∃ package ∈ account.take packagesPageSize, checker.Available package) ∨
      (¬ ∃ package ∈ account, checker.Available package) ∧
        ∀ package ∈ account.take packagesPageSize, package.isActive = true →
          package.Printable := by
  have hcheck := checkQuotaAvailable_of_serves text h
  by_cases hfirst : ∃ package ∈ account.take packagesPageSize, checker.Available package
  · obtain ⟨package, hmem, havailable⟩ := hfirst
    obtain ⟨balance, hfetch⟩ := (fetchBalance_returnsIff text checker).1.mpr hbalance
    have haccount : ∃ package ∈ account, checker.Available package :=
      ⟨package, List.mem_of_mem_take hmem, havailable⟩
    have hpasses : checkQuotaAvailable text checker = .ok () := by
      rw [hcheck, checkPackages_of_available hmem havailable, hfetch]
      rfl
    refine iff_of_true ⟨iff_of_true hpasses haccount, fun hnone => absurd haccount hnone⟩ ?_
    exact Or.inl ⟨package, hmem, havailable⟩
  · -- the first page decides, so the rest of the account must agree with it
    rw [or_iff_right hfirst]
    have hnone : ∀ package ∈ account.take packagesPageSize, ¬ checker.Available package := by
      intro package hmem havailable
      exact hfirst ⟨package, hmem, havailable⟩
    obtain ⟨exc, herror, hkind⟩ := checkPackages_of_exhausted hnone (fetchBalance text checker)
    rw [← hcheck] at herror
    have hnot : ¬ checkQuotaAvailable text checker = .ok () := by
      rw [herror]
      simp
    constructor
    · rintro ⟨hpasses, hraises⟩
      have haccount := hpasses.not.mp hnot
      obtain ⟨text', hexhausted⟩ := hraises haccount
      cases herror.symm.trans hexhausted
      exact ⟨haccount, hkind.mp rfl⟩
    · rintro ⟨haccount, hprintable⟩
      refine ⟨iff_of_false hnot haccount, fun _ => ⟨exc.text, ?_⟩⟩
      have hexc := hkind.mpr hprintable
      rw [herror, ← hexc]

/-! ### A package on the second page -/

def itemOf (package : ProxyPackageQuota) : Json :=
  .dict [("id".toList, .int package.packageId), ("name".toList, .str package.name),
    ("total".toList, .int package.totalBytes), ("used".toList, .int package.usedBytes),
    ("is_active".toList, .bool package.isActive)]

/-- A checker whose service has an account with a balance of 10. -/
def accountChecker (account : List ProxyPackageQuota) : ProxyMarketQuotaChecker where
  apiKey := "key".toList
  get _ params :=
    match params with
    | [(_, page), (_, perPage)] =>
      respond 200 (.ok (.dict [("data".toList, .list ((pageOf account page perPage).map itemOf))]))
        fun exc h => by cases h
    | _ => respond 200 (.ok (.dict [("balance".toList, .int 10)])) fun exc h => by cases h

theorem encodes_itemOf (hname : package.name ≠ []) : Encodes (itemOf package) package := by
  refine ⟨_, rfl, rfl, rfl, rfl, rfl, package.name, rfl, ?_⟩
  rw [List.isEmpty_eq_false_iff.mpr hname, if_neg (by simp)]

theorem servesAccount_accountChecker {account : List ProxyPackageQuota}
    (hname : ∀ package ∈ account, package.name ≠ []) :
    (accountChecker account).ServesAccount account := by
  intro page perPage
  refine ⟨[], _, _, rfl, rfl, ?_⟩
  rw [List.forall₂_map_left_iff, List.forall₂_same]
  intro package hmem
  exact encodes_itemOf (hname package (List.mem_of_mem_drop (List.mem_of_mem_take hmem)))

theorem handlesBalance_accountChecker (account : List ProxyPackageQuota) :
    (accountChecker account).HandlesBalance := by
  intro body hbody
  cases hbody
  refine ⟨_, rfl, fun n hn => ?_⟩
  cases hn
  have hthreshold := PyFloat.le_overflowThreshold
  norm_num
  linarith

/-- A package that is used up, and one that is not. -/
def usedPackage : ProxyPackageQuota := ⟨1, "old".toList, 104857600, 104857600, true⟩

def freshPackage : ProxyPackageQuota := ⟨2, "new".toList, 2147483648, 0, true⟩

/-- The new package comes after fifty old ones. -/
def longAccount : List ProxyPackageQuota := List.replicate 50 usedPackage ++ [freshPackage]

theorem quotaCorrect_iff_longAccount :
    QuotaCorrect noJson (accountChecker longAccount) longAccount ↔
      (∃ package ∈ longAccount.take packagesPageSize,
        (accountChecker longAccount).Available package) ∨
      (¬ ∃ package ∈ longAccount, (accountChecker longAccount).Available package) ∧
        ∀ package ∈ longAccount.take packagesPageSize, package.isActive = true →
          package.Printable :=
  quotaCorrect_iff noJson (servesAccount_accountChecker (by decide))
    (handlesBalance_accountChecker _)

/-- The check fails for an account with traffic left, since it does not see the second page. -/
theorem not_quotaCorrect_longAccount :
    (accountChecker longAccount).ServesAccount longAccount ∧
      (accountChecker longAccount).HandlesBalance ∧
      ¬ QuotaCorrect noJson (accountChecker longAccount) longAccount := by
  have hserves : (accountChecker longAccount).ServesAccount longAccount :=
    servesAccount_accountChecker (by decide)
  refine ⟨hserves, handlesBalance_accountChecker _, fun hcorrect => ?_⟩
  have hnone : ∀ package ∈ longAccount.take packagesPageSize,
      ¬ (accountChecker longAccount).Available package := by
    intro package hmem
    have hused : longAccount.take packagesPageSize = List.replicate 50 usedPackage := rfl
    rw [hused, List.mem_replicate] at hmem
    rw [hmem.2]
    rintro ⟨-, hleft⟩
    exact absurd hleft (by decide)
  have hfresh : ∃ package ∈ longAccount, (accountChecker longAccount).Available package :=
    ⟨freshPackage, by decide, rfl, by decide⟩
  have hpasses := hcorrect.passes_iff.mpr hfresh
  obtain ⟨exc, herror, -⟩ := checkPackages_of_exhausted hnone
    (fetchBalance noJson (accountChecker longAccount))
  rw [checkQuotaAvailable_of_serves noJson hserves] at hpasses
  cases herror.symm.trans hpasses

end MarketplacePipeline.ProxyMarketQuotaChecker
