import FactoryScript.Budget
import FactoryScript.Proofs.Run

/-!
# Measuring a script

A script is marked if ten times its size is more than nine times the budget. The two products are
taken as words, so there is a measurement exactly if both are words (`Budget.measure_eq_ok_iff`),
and then it is the status of the script: the test on words is the one on numbers. A budget of which
nine tenths cannot be tested, since nine times it is no word, gives no measurement of any script,
not even of a short one (`Budget.measure_overflow`). Where scripts are measured, one that is over
the budget is marked, and a mark stays when more is written (`Budget.measure_exact`).
-/

namespace FactoryScript

theorem wordProduct_eq_ok_iff {n k : Nat} {w : UInt64} :
    wordProduct n k = .ok w ↔ w.toNat = n * k := by
  unfold wordProduct
  constructor
  · intro h
    split at h
    · next hlt =>
      cases h
      exact UInt64.toNat_ofNat_of_lt' hlt
    · cases h
  · intro h
    have hlt : n * k < UInt64.size := h ▸ w.toNat_lt
    rw [if_pos hlt, ← h, UInt64.ofNat_toNat]

theorem wordProduct_eq_error_iff {n k : Nat} {e : Overflow} :
    wordProduct n k = .error e ↔ UInt64.size ≤ n * k ∧ e = ⟨n, k⟩ := by
  unfold wordProduct
  split
  · next hlt => exact ⟨nofun, fun h => absurd hlt (Nat.not_lt.2 h.1)⟩
  · next hle =>
    refine ⟨fun h => ?_, fun h => congrArg Except.error h.2.symm⟩
    cases h
    exact ⟨Nat.not_lt.1 hle, rfl⟩

namespace Budget

variable {b : Budget} {code more : String} {s t : BudgetStatus}

/-- The script takes more than nine tenths of the budget. -/
def NearlyFull (b : Budget) (code : String) : Prop := 9 * b.max.toNat < 10 * code.length

instance (b : Budget) (code : String) : Decidable (b.NearlyFull code) :=
  inferInstanceAs (Decidable (_ < _))

/-- Both products of the test are words. -/
def Testable (b : Budget) (code : String) : Prop :=
  10 * code.length < UInt64.size ∧ 9 * b.max.toNat < UInt64.size

instance (b : Budget) (code : String) : Decidable (b.Testable code) :=
  inferInstanceAs (Decidable (_ ∧ _))

theorem warning_status_iff : (b.status code).warning = true ↔ b.NearlyFull code :=
  decide_eq_true_iff

theorem nearlyFull_of_isOver (h : (b.status code).isOver = true) : b.NearlyFull code := by
  have hover : b.max.toNat < code.length := of_decide_eq_true h
  unfold NearlyFull
  omega

/-- A longer script is compared with the same number. -/
theorem NearlyFull.append (h : b.NearlyFull code) (more : String) :
    b.NearlyFull (code ++ more) := by
  unfold NearlyFull at h ⊢
  rw [String.length_append]
  omega

theorem Testable.of_append (h : b.Testable (code ++ more)) : b.Testable code := by
  obtain ⟨hcount, hmax⟩ := h
  rw [String.length_append] at hcount
  exact ⟨by omega, hmax⟩

/-! ## Measurements -/

/-- The test on words is the test on numbers. -/
theorem measure_of_testable (h : b.Testable code) : b.measure code = .ok (b.status code) := by
  obtain ⟨hcount, hmax⟩ := h
  rw [Nat.mul_comm] at hcount hmax
  have hused : wordProduct code.length 10 = .ok (.ofNat (code.length * 10)) := if_pos hcount
  have hallowed : wordProduct b.max.toNat 9 = .ok (.ofNat (b.max.toNat * 9)) := if_pos hmax
  have htest : UInt64.ofNat (b.max.toNat * 9) < UInt64.ofNat (code.length * 10) ↔
      9 * b.max.toNat < 10 * code.length := by
    rw [UInt64.lt_iff_toNat_lt, wordProduct_eq_ok_iff.1 hused, wordProduct_eq_ok_iff.1 hallowed,
      Nat.mul_comm, Nat.mul_comm 10]
  rw [measure, hused, hallowed]
  exact congrArg (fun marked => Except.ok (BudgetStatus.mk code.length b.max marked))
    (decide_eq_decide.2 htest)

/-- Without a measurement the product that is no word is told. -/
theorem measure_of_not_testable (h : ¬ b.Testable code) :
    ∃ e, b.measure code = .error e ∧ UInt64.size ≤ e.factor * e.times := by
  cases hused : wordProduct code.length 10 with
  | error e =>
    obtain ⟨hle, rfl⟩ := wordProduct_eq_error_iff.1 hused
    exact ⟨_, by rw [measure, hused]; rfl, hle⟩
  | ok used =>
    cases hallowed : wordProduct b.max.toNat 9 with
    | error e =>
      obtain ⟨hle, rfl⟩ := wordProduct_eq_error_iff.1 hallowed
      exact ⟨_, by rw [measure, hused, hallowed]; rfl, hle⟩
    | ok allowed =>
      have hcount := used.toNat_lt
      have hmax := allowed.toNat_lt
      rw [wordProduct_eq_ok_iff.1 hused, Nat.mul_comm] at hcount
      rw [wordProduct_eq_ok_iff.1 hallowed, Nat.mul_comm] at hmax
      exact absurd ⟨hcount, hmax⟩ h

theorem measure_eq_ok_iff : b.measure code = .ok s ↔ b.Testable code ∧ s = b.status code := by
  constructor
  · intro h
    by_cases htest : b.Testable code
    · rw [measure_of_testable htest] at h
      exact ⟨htest, (Except.ok.inj h).symm⟩
    · obtain ⟨e, he, -⟩ := measure_of_not_testable htest
      rw [he] at h
      cases h
  · rintro ⟨htest, rfl⟩
    exact measure_of_testable htest

/-- Sessions and commands use the status itself. No memory holds a script so long that measuring it
with the budget of the device would give anything else. -/
theorem measure_device (h : 10 * code.length < UInt64.size) :
    device.measure code = .ok (device.status code) :=
  measure_of_testable ⟨h, by decide⟩

theorem eq_status_iff : s = b.status code ↔
    s.count = code.toList.length ∧ s.max = b.max ∧ (s.warning = true ↔ b.NearlyFull code) := by
  rw [← warning_status_iff, ← Bool.eq_iff_iff, String.length_toList]
  obtain ⟨count, max, warning⟩ := s
  exact Iff.of_eq (BudgetStatus.mk.injEq ..)

/-- What a measurement tells of a script. -/
structure MeasuredExactly (b : Budget) (code : String) : Prop where
  /-- A measurement counts the characters, and marks the script by a test on numbers without
  bounds. -/
  measured (s : BudgetStatus) : b.measure code = .ok s ↔ b.Testable code ∧
    s.count = code.toList.length ∧ s.max = b.max ∧ (s.warning = true ↔ b.NearlyFull code)
  /-- There is a measurement unless a product is no word, which is told. -/
  refused : (∃ e, b.measure code = .error e ∧ UInt64.size ≤ e.factor * e.times) ↔
    UInt64.size ≤ 10 * code.length ∨ UInt64.size ≤ 9 * b.max.toNat
  exceeded (s : BudgetStatus) : b.measure code = .ok s → s.isOver = true → s.warning = true
  appended (more : String) (t : BudgetStatus) : b.measure (code ++ more) = .ok t →
    ∃ s, b.measure code = .ok s ∧ (s.warning = true → t.warning = true)

/-- A script is measured exactly if both products of the test are words, and the measurement is
exact. Then scripts over the budget are marked, and no mark goes away when a script grows. -/
theorem measure_exact (b : Budget) (code : String) : MeasuredExactly b code where
  measured s := by rw [measure_eq_ok_iff, eq_status_iff]
  refused := by
    have hnot : ¬ b.Testable code ↔
        UInt64.size ≤ 10 * code.length ∨ UInt64.size ≤ 9 * b.max.toNat := by
      rw [Testable, Decidable.not_and_iff_or_not, Nat.not_lt, Nat.not_lt]
    rw [← hnot]
    refine ⟨fun ⟨e, he, _⟩ htest => ?_, measure_of_not_testable⟩
    rw [measure_of_testable htest] at he
    cases he
  exceeded s h hover := by
    obtain ⟨-, rfl⟩ := measure_eq_ok_iff.1 h
    exact warning_status_iff.2 (nearlyFull_of_isOver hover)
  appended more t h := by
    obtain ⟨htest, rfl⟩ := measure_eq_ok_iff.1 h
    refine ⟨b.status code, measure_of_testable htest.of_append, fun hmarked => ?_⟩
    exact warning_status_iff.2 ((warning_status_iff.1 hmarked).append more)

/-- The largest budget of which nine tenths can be tested is not nearly filled by one character. One
that is filled by four is exceeded by five, and what is appended does not change that. -/
theorem measure_exact_largest :
    measure ⟨2049638230412172401⟩ "x" = .ok ⟨1, 2049638230412172401, false⟩ ∧
      measure ⟨4⟩ "hello" = .ok ⟨5, 4, true⟩ ∧
      measure ⟨4⟩ ("hello" ++ " there") = .ok ⟨11, 4, true⟩ := by
  have hlargest := (measure_exact ⟨2049638230412172401⟩ "x").measured
    ⟨1, 2049638230412172401, false⟩
  have hsmall := (measure_exact ⟨4⟩ "hello").measured ⟨5, 4, true⟩
  have hlonger := (measure_exact ⟨4⟩ ("hello" ++ " there")).measured ⟨11, 4, true⟩
  exact ⟨hlargest.2 (by decide), hsmall.2 (by decide), hlonger.2 (by decide)⟩

/-- The next larger budget cannot be tested, however little is written. -/
theorem measure_overflow :
    measure ⟨2049638230412172402⟩ "x" = .error ⟨2049638230412172402, 9⟩ ∧
      ¬ NearlyFull ⟨2049638230412172402⟩ "x" := by
  have hused : wordProduct "x".length 10 = .ok 10 := wordProduct_eq_ok_iff.2 (by decide)
  have hallowed : wordProduct (UInt64.toNat 2049638230412172402) 9 =
      .error ⟨2049638230412172402, 9⟩ := wordProduct_eq_error_iff.2 ⟨by decide, by decide⟩
  refine ⟨?_, by decide⟩
  rw [measure, hused, hallowed]
  rfl

end Budget
end FactoryScript
