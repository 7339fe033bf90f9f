import FactoryScript.Json.Numeral

/-!
# Counts as JSON numbers

A number of few digits is kept as it is by the approximation that is made of it, so it lies within
the range of floating point (`Json.Numeral.exceedsRange_toDigits`).
-/

namespace FactoryScript.Json.Numeral

theorem nearestDouble_of_lt {n : Nat} (h : n < Nat.pow 2 53) : nearestDouble n = n := by
  have hunit : n.log2 + 1 - 53 = 0 := by
    by_cases hn : n = 0
    · simp [hn]
    · have := (Nat.log2_lt hn).2 h
      omega
  simp [nearestDouble, hunit, Nat.mod_one]

namespace Approximation

/-- While the significand stays below the word size a digit is taken in exactly. -/
theorem whole_of_lt {a : Approximation} {c : Char} (hfull : a.full = false)
    (h : 10 * a.significand + (c.toNat - '0'.toNat) < Nat.pow 2 64) :
    a.whole c = { a with significand := 10 * a.significand + (c.toNat - '0'.toNat) } := by
  have hle : ¬ Nat.pow 2 64 ≤ 10 * a.significand + Count.digitValue c := Nat.not_le.2 h
  have happend : a.append? c = some (10 * a.significand + Count.digitValue c) := by
    rw [append?, hfull, decide_eq_false hle]
    rfl
  rw [whole, happend]
  rfl

/-- All digits of a number of 64 bits are kept. -/
theorem foldl_whole {cs : List Char} {m : Nat} (h : Nat.ofDigitChars 10 cs m < Nat.pow 2 64) :
    cs.foldl whole ⟨m, 0, false⟩ = ⟨Nat.ofDigitChars 10 cs m, 0, false⟩ := by
  induction cs generalizing m with
  | nil => rw [List.foldl_nil, Nat.ofDigitChars_nil]
  | cons c cs ih =>
    rw [Nat.ofDigitChars_cons] at h ⊢
    have hle : 10 * m + (c.toNat - '0'.toNat) ≤
        Nat.ofDigitChars 10 cs (10 * m + (c.toNat - '0'.toNat)) := by
      rw [Nat.ofDigitChars_eq_ofDigitChars_zero]
      exact Nat.le_add_right_of_le (Nat.le_mul_of_pos_left _ (Nat.pow_pos (by decide)))
    rw [List.foldl_cons, whole_of_lt rfl (Nat.lt_of_le_of_lt hle h), ih h]

theorem exceedsRange_of_lt {n : Nat} (h : n < Nat.pow 2 53) :
    exceedsRange ⟨n, 0, false⟩ = false := by
  have hone : nearestDouble (Nat.pow 10 (0 : Int).toNat) = 1 := nearestDouble_of_lt (by decide)
  have hlt : ¬ overflow ≤ n :=
    Nat.not_le.2 (Nat.lt_of_lt_of_le h (by decide +kernel : Nat.pow 2 53 ≤ overflow))
  simp only [exceedsRange, hone, nearestDouble_of_lt h, Nat.mul_one, hlt, decide_false]
  simp [maxExponent]

end Approximation

/-- A number of few digits lies within the range of floating point. -/
theorem exceedsRange_toDigits {n : Nat} (h : n < Nat.pow 2 53) :
    exceedsRange (Nat.toDigits 10 n) = false := by
  have hdigit : ∀ c ∈ Nat.toDigits 10 n, c.isDigit = true := fun _ =>
    Nat.isDigit_of_mem_toDigits (by decide) (by decide)
  have hsign : (Nat.toDigits 10 n).dropWhile (· == '-') = Nat.toDigits 10 n := by
    refine List.dropWhile_beq_eq_self_of_head?_ne fun hhead => ?_
    cases hdigit '-' (List.mem_of_head? hhead)
  -- digits are neither a point nor the start of an exponent, so all of them stand before both
  have htake (p : Char → Bool) (hp : ∀ c, c.isDigit = true → p c = true) :
      (Nat.toDigits 10 n).takeWhile p = Nat.toDigits 10 n := by
    have happend := @List.takeWhile_append_of_pos _ p _ [] fun c hc => hp c (hdigit c hc)
    simpa using happend
  have hmantissa : (Nat.toDigits 10 n).takeWhile (fun c => c != 'e' && c != 'E') =
      Nat.toDigits 10 n := by
    refine htake _ fun c hc => ?_
    rw [Bool.and_eq_true, bne_iff_ne, bne_iff_ne]
    constructor <;> rintro rfl <;> cases hc
  have hwhole : (Nat.toDigits 10 n).takeWhile (· != '.') = Nat.toDigits 10 n := by
    refine htake _ fun c hc => bne_iff_ne.2 ?_
    rintro rfl
    cases hc
  have hvalue : Nat.ofDigitChars 10 (Nat.toDigits 10 n) 0 = n := Nat.ofDigitChars_ten_toDigits
  have hfold : (Nat.toDigits 10 n).foldl Approximation.whole ⟨0, 0, false⟩ = ⟨n, 0, false⟩ := by
    have hlt : n < Nat.pow 2 64 := Nat.lt_trans h (by decide)
    rw [Approximation.foldl_whole (hvalue.symm ▸ hlt), hvalue]
  simp only [exceedsRange, hsign, hmantissa, hwhole, List.drop_length, List.drop_nil]
  simp [Approximation.ofDigits, hfold, Count.ofDigits, Approximation.exceedsRange_of_lt h]

end FactoryScript.Json.Numeral
