import Calculator.Error
import Calculator.Precision.Power
import Calculator.Proofs.Precision.DigitList
import Calculator.Proofs.Precision.Exact

/-!
# The two ways of an integral power

An exponent within sixty-four bits is applied by repeated squaring, a longer one through logarithm
and exponential. The exponent is looked at as an integer of the precision's digits first, so one with
more digits is refused, unless it has more than nineteen.
-/

namespace Calculator.Precision

variable {p : Precision} {b e : Decimal} {k : ℤ}

/-- The power with a natural exponent before it is rounded to the digits that are kept. -/
def naturalPower (p : Precision) (base : Decimal) (n : ℕ) : Except Condition Decimal := do
  let square ← p.round base
  p.multiplyPower (n.log2 + 1) n 1 square

/-- A negative exponent inverts the power of its size. -/
theorem integerPower_eq (p : Precision) (b : Decimal) (k : ℤ) :
    p.integerPower b k = (do
      let result ← p.widened.naturalPower b k.natAbs
      if k < 0 then p.round (← p.widened.divide 1 result) else p.round result) := by
  unfold integerPower naturalPower
  rw [bind_assoc]

/-- A step of repeated squaring multiplies for an odd exponent and squares unless it is the last. -/
theorem multiplyPower_succ (limit : ℕ) {n : ℕ} (some : n ≠ 0) (result square : Decimal) :
    p.multiplyPower (limit + 1) n result square = (do
      let result ← (if n % 2 = 1 then p.multiply result square else .ok result)
      if n / 2 = 0 then .ok result
      else p.multiplyPower limit (n / 2) result (← p.multiply square square)) := by
  rw [multiplyPower, if_neg some]
  dsimp only
  split <;> rfl

/-- The logarithm of the power. -/
def logarithmOfPower (p : Precision) (base exponent : Decimal) : Except Condition Decimal := do
  p.multiply (← p.ln base.abs) exponent

/-- The integer fits into sixty-four bits. -/
def IsShort (k : ℤ) : Prop := -9223372036854775808 ≤ k ∧ k ≤ 9223372036854775807

instance (k : ℤ) : Decidable (IsShort k) := inferInstanceAs (Decidable (_ ∧ _))

/-! ## The exponent as an integer -/

/-- An integer is integral as it is written. -/
theorem isIntegral_of_value (whole : e.value = k) : e.isIntegral = true :=
  decide_eq_true (Decimal.exponent_nonneg_iff.2 ⟨k, whole⟩)

/-- The test for odd exponents finds the odd integers. -/
theorem isOdd_iff (whole : e.value = k) : e.isOdd = true ↔ k % 2 = 1 := by
  have integral := Decimal.exponent_nonneg_iff.2 ⟨k, whole⟩
  rw [← Decimal.coefficient_mul_pow whole, Decimal.isOdd, Bool.and_eq_true, beq_iff_eq, bne_iff_ne]
  by_cases last : e.exponent = 0
  · rw [last, Int.toNat_zero, pow_zero, mul_one]
    omega
  · obtain ⟨m, step⟩ : ∃ m, e.exponent.toNat = m + 1 := ⟨e.exponent.toNat - 1, by omega⟩
    rw [step, pow_succ, ← mul_assoc]
    omega

/-- An exponent of sixty-four bits has at most nineteen digits. -/
theorem adjusted_le_of_isShort (whole : e.value = k) (short : IsShort k) : e.adjusted ≤ 18 := by
  by_cases vanishes : e.value = 0
  · rw [Decimal.isZero_iff.1 (Decimal.isZero_iff_value.2 vanishes)]
    decide
  · have size : |e.value| < 10 ^ (19 : ℤ) := by
      have bound : |k| < 10 ^ 19 := by
        rw [abs_lt]
        obtain ⟨low, high⟩ := short
        constructor <;> omega
      rw [whole]
      exact_mod_cast bound
    have power := (Decimal.zpow_adjusted_le vanishes).trans_lt size
    have less := (zpow_lt_zpow_iff_right₀ (by norm_num : (1 : ℚ) < 10)).1 power
    omega

/-- An exponent that is not refused goes to the squaring if it has sixty-four bits. -/
theorem squaringExponent_eq (whole : e.value = k)
    (fits : e.adjusted < p.digits ∨ 18 < e.adjusted) :
    p.squaringExponent e = .ok (if IsShort k then some k else none) := by
  unfold squaringExponent
  rw [isIntegral_of_value whole, Bool.true_and]
  split
  · rename_i low
    rw [decide_eq_true_eq] at low
    exact bind_eq_ok.2 ⟨k, integerOf_eq whole (by omega), rfl⟩
  · rename_i long
    rw [decide_eq_true_eq] at long
    rw [if_neg (mt (adjusted_le_of_isShort whole) long)]
    rfl

/-- An exponent of more digits than the precision has is refused, if it is of moderate size. -/
theorem squaringExponent_refused (whole : e.value = k) (nonzero : k ≠ 0)
    (long : p.digits ≤ e.adjusted) (low : e.adjusted ≤ 18) :
    p.squaringExponent e = .error .invalidOperation := by
  have some : ¬e.isZero = true := by
    rw [Decimal.isZero_iff_value, whole]
    exact_mod_cast nonzero
  have refused : p.integerOf e = .error .invalidOperation := by
    unfold integerOf
    rw [if_neg some, if_pos long]
  unfold squaringExponent
  rw [isIntegral_of_value whole, Bool.true_and, if_pos (decide_eq_true low), refused]
  rfl

/-! ## The power -/

/-- The power zero is one, also of zero. -/
theorem power_of_zero (p : Precision) (b : Decimal) (whole : e.value = 0) : p.power b e = .ok 1 := by
  unfold power
  rw [if_pos (Decimal.isZero_iff_value.2 whole)]
  rfl

/-- A power of a number that is not zero is squared, or goes through its logarithm. -/
theorem power_eq (base : b.value ≠ 0) (whole : e.value = k) (nonzero : k ≠ 0) :
    p.power b e = (do
      match ← p.squaringExponent e with
      | some n => p.integerPower b n
      | none =>
        let result ← p.widened.exp (← p.widened.logarithmOfPower b e)
        p.round (if b.isNegative && e.isOdd then -result else result)) := by
  have some : ¬e.isZero = true := by
    rw [Decimal.isZero_iff_value, whole]
    exact_mod_cast nonzero
  have other : e ≠ .ofParts 5 (-1) := by
    rintro rfl
    exact absurd (isIntegral_of_value whole) (by decide)
  unfold power
  rw [if_neg some, if_neg (mt Decimal.isZero_iff_value.1 base), isIntegral_of_value whole]
  simp only [other, decide_false, Bool.false_and, Bool.not_true, Bool.and_false, logarithmOfPower,
    bind_assoc]
  rfl

/-- A short exponent squares. -/
theorem power_of_isShort (base : b.value ≠ 0) (whole : e.value = k) (nonzero : k ≠ 0)
    (short : IsShort k) (fits : e.adjusted < p.digits ∨ 18 < e.adjusted) :
    p.power b e = p.integerPower b k := by
  rw [power_eq base whole nonzero, squaringExponent_eq whole fits, if_pos short]
  rfl

/-- A long exponent goes through the logarithm, and the sign is put back. -/
theorem power_of_not_isShort (base : b.value ≠ 0) (whole : e.value = k) (nonzero : k ≠ 0)
    (long : ¬IsShort k) (fits : e.adjusted < p.digits ∨ 18 < e.adjusted) :
    p.power b e = (do
      let result ← p.widened.exp (← p.widened.logarithmOfPower b e)
      p.round (if b.isNegative && e.isOdd then -result else result)) := by
  rw [power_eq base whole nonzero, squaringExponent_eq whole fits, if_neg long]
  rfl

end Calculator.Precision
