import MarketplacePipeline.Proxy.ProxyMarketQuotaChecker
import Mathlib.Algebra.Order.BigOperators.Group.List

/-!
# What the packages decide

An active package that is not used up decides the check: it passes, whatever the balance is
(`checkPackages_of_available`).  Without one it raises `ProxyQuotaExhaustedError`, if the sizes that
the error quotes can be formatted (`checkPackages_of_exhausted`).  So the balance has no influence
(`checkPackages_balance`).
-/

namespace MarketplacePipeline

/-! ### Sizes -/

/-- The sizes that `format_bytes` can divide. -/
def Formattable (numBytes : ℤ) : Prop := (numBytes : ℚ) < PyFloat.overflowThreshold * 1073741824

/-- A quotient is a float, or too large for one. -/
theorem trueDiv_returnsIff {a b : ℤ} (ha : 0 ≤ a) (hb : 0 < b) :
    ReturnsIff (fun exc => exc.kind = .exception) (trueDiv a b)
      ((a : ℚ) < PyFloat.overflowThreshold * b) := by
  have ha' : (0 : ℚ) ≤ a := by exact_mod_cast ha
  have hb' : (0 : ℚ) < b := by exact_mod_cast hb
  have hiff := PyFloat.finite?_ofRat_eq_none_iff (a / b)
  rw [abs_of_nonneg (div_nonneg ha' hb'.le), le_div_iff₀ hb'] at hiff
  unfold trueDiv
  cases hfinite : (PyFloat.ofRat (a / b)).finite? with
  | none =>
    refine (ReturnsIff.error ?_).congr (iff_of_false id (not_lt.mpr (hiff.mp hfinite)))
    rfl
  | some x =>
    refine (ReturnsIff.ok x).congr (iff_of_true trivial (lt_of_not_ge fun hle => ?_))
    cases hfinite.symm.trans (hiff.mpr hle)

theorem formatBytes_returnsIff (numBytes : ℤ) :
    ReturnsIff (fun exc => exc.kind = .exception) (formatBytes numBytes)
      (Formattable numBytes) := by
  have hthreshold := PyFloat.le_overflowThreshold
  unfold formatBytes Formattable
  by_cases hlarge : 1073741824 ≤ numBytes
  · rw [if_pos hlarge]
    exact (trueDiv_returnsIff (by omega) (by norm_num)).map _
  · -- a smaller number is far from the greatest float
    have hsmall : (numBytes : ℚ) < 1073741824 := by exact_mod_cast not_le.mp hlarge
    have hlt : (numBytes : ℚ) < PyFloat.overflowThreshold * 1073741824 := by linarith
    have hdiv : ∀ b : ℤ, 0 < b → b ≤ numBytes →
        ReturnsIff (fun exc => exc.kind = .exception) (trueDiv numBytes b)
          ((numBytes : ℚ) < PyFloat.overflowThreshold * 1073741824) := by
      intro b hb hle
      have hb' : (1 : ℚ) ≤ b := by exact_mod_cast hb
      exact (trueDiv_returnsIff (by omega) hb).congr (iff_of_true (by nlinarith) hlt)
    rw [if_neg hlarge]
    split_ifs with hmega hkilo
    · exact (hdiv 1048576 (by norm_num) hmega).map _
    · exact (hdiv 1024 (by norm_num) hkilo).map _
    · exact (ReturnsIff.ok _).congr (iff_of_true trivial hlt)

example : formatBytes 2147483648 = .ok "2.00 GB".toList := by decide +kernel

namespace ProxyPackageQuota

/-- The sizes of a package can be quoted. -/
def Printable (package : ProxyPackageQuota) : Prop :=
  Formattable package.usedBytes ∧ Formattable package.totalBytes

theorem remainingBytes_nonneg (package : ProxyPackageQuota) : 0 ≤ package.remainingBytes :=
  le_max_left _ _

end ProxyPackageQuota

namespace ProxyMarketQuotaChecker

theorem describe_returnsIff (package : ProxyPackageQuota) :
    ReturnsIff (fun exc => exc.kind = .exception) (describe package) package.Printable := by
  have hused := formatBytes_returnsIff package.usedBytes
  have htotal := formatBytes_returnsIff package.totalBytes
  refine hused.bind fun used _ => (htotal.bind fun total _ => ReturnsIff.ok _).congr ?_
  exact and_iff_left trivial

/-! ### The packages -/

variable {checker : ProxyMarketQuotaChecker} {packages : List ProxyPackageQuota}

/-- An active package that is not used up. -/
def Available (checker : ProxyMarketQuotaChecker) (package : ProxyPackageQuota) : Prop :=
  package.isActive = true ∧ checker.minRemainingBytes ≤ package.remainingBytes

variable (checker packages) in
/-- All active packages are used up if and only if none is available. -/
theorem length_depleted_iff :
    ((packages.filter fun package => package.isActive).filter fun package =>
        package.remainingBytes < checker.minRemainingBytes).length =
        (packages.filter fun package => package.isActive).length ↔
      ∀ package ∈ packages, ¬ checker.Available package := by
  rw [List.length_filter_eq_length_iff]
  simp only [List.mem_filter, and_imp, decide_eq_true_eq]
  refine forall₂_congr fun package _ => ?_
  unfold Available
  rw [not_and, not_le]

/-- The clamped rests of the active packages are at least that of an available one. -/
theorem le_sum_of_available {package : ProxyPackageQuota} (hmem : package ∈ packages)
    (h : checker.Available package) :
    checker.minRemainingBytes ≤ ((packages.filter fun package => package.isActive).map
      fun package => package.remainingBytes).sum := by
  have hactive : package ∈ packages.filter fun package => package.isActive :=
    List.mem_filter.mpr ⟨hmem, h.1⟩
  refine h.2.trans (List.single_le_sum ?_ _ (List.mem_map_of_mem hactive))
  intro rest hrest
  obtain ⟨other, -, rfl⟩ := List.mem_map.mp hrest
  exact other.remainingBytes_nonneg

/-- With an available package, the check passes for every balance. -/
theorem checkPackages_of_available {package : ProxyPackageQuota} (hmem : package ∈ packages)
    (h : checker.Available package) (balance : Except PyError (Option PyFloat)) :
    checker.checkPackages packages balance = balance.map fun _ => () := by
  have hactive : (packages.filter fun package => package.isActive).isEmpty = false :=
    List.isEmpty_eq_false_iff.mpr (List.ne_nil_of_mem (List.mem_filter.mpr ⟨hmem, h.1⟩))
  have hdepleted := (length_depleted_iff checker packages).not.mpr fun hall =>
    hall package hmem h
  have hsum := not_lt.mpr (le_sum_of_available hmem h)
  unfold checkPackages
  dsimp only
  rw [hactive, if_neg (by simp), if_neg hdepleted]
  cases balance with
  | error exc => rfl
  | ok balance =>
    cases balance with
    | none => rfl
    | some balance => exact if_neg fun hboth => hsum hboth.2

/-- Without one it raises, before the balance is fetched. -/
theorem checkPackages_of_exhausted (h : ∀ package ∈ packages, ¬ checker.Available package)
    (balance : Except PyError (Option PyFloat)) :
    ∃ exc, checker.checkPackages packages balance = .error exc ∧
      (exc.kind = .proxyQuotaExhausted ↔
        ∀ package ∈ packages, package.isActive = true → package.Printable) := by
  have hdepleted := (length_depleted_iff checker packages).mpr h
  have hdescribe := ReturnsIff.mapM (packages.filter fun package => package.isActive)
    fun package _ => describe_returnsIff package
  simp only [List.mem_filter, and_imp] at hdescribe
  unfold checkPackages
  dsimp only
  split_ifs with hactive
  · -- nothing is quoted where no package is active
    refine ⟨_, rfl, iff_of_true rfl fun package hmem hpackage => ?_⟩
    have hnil := List.isEmpty_iff.mp hactive
    have hfilter : package ∈ packages.filter fun package => package.isActive :=
      List.mem_filter.mpr ⟨hmem, hpackage⟩
    rw [hnil] at hfilter
    cases hfilter
  · cases hdetails : (packages.filter fun package => package.isActive).mapM describe with
    | ok details => exact ⟨_, rfl, iff_of_true rfl (hdescribe.1.mp ⟨details, hdetails⟩)⟩
    | error exc =>
      have hkind := hdescribe.2 exc hdetails
      refine ⟨exc, rfl, iff_of_false (by rw [hkind]; simp) fun hprintable => ?_⟩
      obtain ⟨details, hok⟩ := hdescribe.1.mpr hprintable
      cases hdetails.symm.trans hok

/-- The packages get to the check of the balance, and their traffic is less than the minimum. -/
def PrepaidDepleted (checker : ProxyMarketQuotaChecker) (packages : List ProxyPackageQuota) :
    Prop :=
  let active := packages.filter fun package => package.isActive
  (active.filter fun package =>
    package.remainingBytes < checker.minRemainingBytes).length ≠ active.length ∧
    (active.map fun package => package.remainingBytes).sum < checker.minRemainingBytes

/-- **The balance has no influence**: the check of fetched packages comes to the same for any two
balances, since it gets to the balance with enough traffic only. -/
theorem checkPackages_balance (checker : ProxyMarketQuotaChecker)
    (packages : List ProxyPackageQuota) (balance balance' : Option PyFloat) :
    checker.checkPackages packages (.ok balance) = checker.checkPackages packages (.ok balance') ∧
      ¬ checker.PrepaidDepleted packages := by
  have hdepleted := length_depleted_iff checker packages
  by_cases havailable : ∃ package ∈ packages, checker.Available package
  · -- one package with enough left, and clamped rests: the sum is enough
    obtain ⟨package, hmem, h⟩ := havailable
    rw [checkPackages_of_available hmem h, checkPackages_of_available hmem h]
    exact ⟨rfl, fun hprepaid => absurd hprepaid.2 (not_lt.mpr (le_sum_of_available hmem h))⟩
  · have hnone : ∀ package ∈ packages, ¬ checker.Available package := by
      intro package hmem h
      exact havailable ⟨package, hmem, h⟩
    refine ⟨?_, fun hprepaid => hprepaid.1 (hdepleted.mpr hnone)⟩
    unfold checkPackages
    dsimp only
    rw [if_pos (hdepleted.mpr hnone), if_pos (hdepleted.mpr hnone)]

end ProxyMarketQuotaChecker

end MarketplacePipeline
