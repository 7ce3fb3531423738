import Calculator.Proofs.Decimal.Integral
import Calculator.Proofs.Precision.Exact

/-!
# The integer quotient and its remainder

Both operands are written with the smaller of their exponents, and the integers are divided. The
quotient is refused when it has more digits than the precision, which two exponents tell beforehand
when they are far apart. The remainder has no more digits than one of the operands, so neither result
is rounded: they obey the law of division exactly, up to the bounds of the exponents.
-/

namespace Calculator

open Decimal (ten_zpow_pos ten_zpow_add)

namespace Decimal

@[simp] theorem coefficientAt_self (x : Decimal) : x.coefficientAt x.exponent = x.coefficient := by
  unfold coefficientAt
  split
  · rename_i vanishes
    exact vanishes.symm
  · rw [Int.sub_self]
    simp [tenPow]

/-- A quotient of numbers whose leading digits stand far apart is long. -/
theorem pow_le_abs_integerPart_div {a b : Decimal} {d : ℕ} (dividend : a.value ≠ 0)
    (divisor : b.value ≠ 0) (far : d < a.adjusted - b.adjusted) :
    (10 : ℤ) ^ d ≤ |integerPart (a.value / b.value)| := by
  have upper := abs_value_lt divisor
  have lower := zpow_adjusted_le dividend
  rw [abs_integerPart, Int.le_floor, abs_div, le_div_iff₀ (abs_pos.2 divisor)]
  push_cast
  calc (10 : ℚ) ^ d * |b.value| ≤ 10 ^ (d : ℤ) * 10 ^ (b.adjusted + 1) := by
        rw [zpow_natCast]
        exact mul_le_mul_of_nonneg_left upper.le (by positivity)
    _ = 10 ^ (d + (b.adjusted + 1)) := (ten_zpow_add _ _).symm
    _ ≤ 10 ^ a.adjusted := zpow_le_zpow_right₀ (by norm_num) (by omega)
    _ ≤ |a.value| := lower

end Decimal

namespace Precision

variable {p : Precision} {a b : Decimal}

/-! ## The division of the coefficients -/

theorem natAbs_tmod_lt {x y : ℤ} {n : ℕ} (divisor : y ≠ 0) (few : x.natAbs < n ∨ y.natAbs < n) :
    (x.tmod y).natAbs < n := by
  have size := Int.natAbs_tmod x y
  have shorter := Nat.mod_le x.natAbs y.natAbs
  have smaller := Nat.mod_lt x.natAbs (y := y.natAbs) (by omega)
  omega

section

variable (digit : 0 < p.digits) (ha : a.digits ≤ p.digits) (hb : b.digits ≤ p.digits)

include digit ha hb

/-- One of the operands keeps its coefficient, which has few digits. -/
theorem exists_aligned :
    ∃ x y : ℤ, a.coefficientAt (min a.exponent b.exponent) = x ∧
      b.coefficientAt (min a.exponent b.exponent) = y ∧
      a.value = x * 10 ^ min a.exponent b.exponent ∧
      b.value = y * 10 ^ min a.exponent b.exponent ∧
      (x.natAbs < 10 ^ p.digits ∨ y.natAbs < 10 ^ p.digits) := by
  have shortA : a.coefficient.natAbs < 10 ^ p.digits := (Decimal.digits_le_iff digit).1 ha
  have shortB : b.coefficient.natAbs < 10 ^ p.digits := (Decimal.digits_le_iff digit).1 hb
  refine ⟨_, _, rfl, rfl, (Decimal.coefficientAt_mul (Int.min_le_left ..)).symm,
    (Decimal.coefficientAt_mul (Int.min_le_right ..)).symm, ?_⟩
  rcases le_total a.exponent b.exponent with le | le
  · rw [min_eq_left le, Decimal.coefficientAt_self]
    exact .inl shortA
  · rw [min_eq_right le, Decimal.coefficientAt_self]
    exact .inr shortB

/-- The division of the aligned coefficients is that of the numbers, and what it leaves is as short as
the operand that keeps its coefficient. -/
theorem quotientRemainder_eq (nonzero : b.value ≠ 0) :
    ∃ r e : ℤ, r * 10 ^ e = a.value - integerPart (a.value / b.value) * b.value ∧
      r.natAbs < 10 ^ p.digits ∧
      p.quotientRemainder a b =
        if 10 ^ p.digits ≤ |integerPart (a.value / b.value)| then .error .divisionImpossible
        else .ok (integerPart (a.value / b.value), r, e) := by
  unfold quotientRemainder
  rw [if_neg (mt Decimal.isZero_iff_value.1 nonzero)]
  by_cases vanishes : a.value = 0
  · have power : (0 : ℤ) < 10 ^ p.digits := by positivity
    have quotient : integerPart (a.value / b.value) = 0 := by simp [integerPart, vanishes]
    refine ⟨0, 0, by rw [quotient]; simp [vanishes], by simp, ?_⟩
    rw [if_pos (Decimal.isZero_iff_value.2 vanishes), quotient, abs_zero, if_neg (not_le.2 power)]
  · rw [if_neg (mt Decimal.isZero_iff_value.1 vanishes)]
    obtain ⟨x, y, alignedA, alignedB, valueA, valueB, short⟩ := exists_aligned digit ha hb
    have unit := ten_zpow_pos (min a.exponent b.exponent)
    have divisor : y ≠ 0 := by
      rintro rfl
      exact nonzero (by rw [valueB, Int.cast_zero, zero_mul])
    have quotient : integerPart (a.value / b.value) = x.tdiv y := by
      rw [valueA, valueB, mul_div_mul_right _ _ unit.ne', integerPart_div]
    refine ⟨x.tmod y, min a.exponent b.exponent, ?_, natAbs_tmod_lt divisor short, ?_⟩
    · have law : (x : ℚ) = y * x.tdiv y + x.tmod y := by
        exact_mod_cast (Int.mul_tdiv_add_tmod x y).symm
      rw [quotient, valueA, valueB, law]
      ring
    · have long : p.digits < digitCount (x.tdiv y).natAbs ↔ (10 : ℤ) ^ p.digits ≤ |x.tdiv y| := by
        rw [← not_le, digitCount_le_iff digit, not_lt, Int.abs_eq_natAbs]
        exact_mod_cast Iff.rfl
      split
      · rename_i far
        rw [if_pos (Decimal.pow_le_abs_integerPart_div vanishes nonzero far)]
      · dsimp only
        simp only [alignedA, alignedB, quotient, gt_iff_lt, long]

end

/-! ## The law of division -/

/-- An integer is not too small. -/
theorem check_ofInt (n : ℤ) :
    check (.ofInt n) =
      if exponentBound < (Decimal.ofInt n).adjusted then .error .overflow else .ok (.ofInt n) := by
  have bound : 0 ≤ exponentBound := by decide
  have whole := Decimal.adjusted_ofInt_nonneg n
  unfold check
  split
  · rename_i vanishes
    rw [Decimal.isZero_iff.1 vanishes, if_neg (by decide)]
  · rw [if_neg (by omega : ¬(Decimal.ofInt n).adjusted < -exponentBound)]

theorem bound_lt_adjusted_ofInt_iff {n : ℤ} : exponentBound < (Decimal.ofInt n).adjusted ↔
    ¬|n| < 10 ^ 1000000 := by
  rcases eq_or_ne n 0 with rfl | nonzero
  · have power : (0 : ℤ) < 10 ^ 1000000 := pow_pos (by decide) _
    rw [abs_zero]
    exact iff_of_false (by decide) (not_not.2 power)
  · have size := Decimal.adjusted_lt_natCast_iff (Decimal.value_ofInt n) nonzero (d := 1000000)
    have bound : exponentBound = 999999 := rfl
    rw [← size]
    omega

/-- An integer of more than a million digits is refused. -/
theorem check_ofInt_eq (n : ℤ) :
    check (.ofInt n) = if |n| < 10 ^ 1000000 then .ok (.ofInt n) else .error .overflow := by
  rw [check_ofInt]
  simp only [bound_lt_adjusted_ofInt_iff, ite_not]

/-- What is smaller than a number within the bounds is not too large. -/
theorem check_of_lt {r : Decimal} (inside : InRange b.value) (smaller : |r.value| < |b.value|) :
    check r =
      if r.value ≠ 0 ∧ r.adjusted < -exponentBound then .error .underflow else .ok r := by
  unfold check
  split
  · rename_i vanishes
    rw [if_neg (fun h => h.1 (Decimal.isZero_iff_value.1 vanishes))]
  · rename_i nonzero
    have nonzero_value := mt Decimal.isZero_iff_value.2 nonzero
    have fits : ¬exponentBound < r.adjusted := by
      have log := Int.log_mono_right (b := 10) (abs_pos.2 nonzero_value) smaller.le
      rw [Decimal.adjusted_eq_log (mt Decimal.value_eq_zero_iff.2 nonzero_value)]
      rcases inside with vanishes | ⟨-, high⟩
      · rw [vanishes, abs_zero] at smaller
        exact absurd smaller (not_lt.2 (abs_nonneg _))
      · omega
    rw [if_neg fits]
    simp only [ne_eq, nonzero_value, not_false_eq_true, true_and]

/-- The rest of a division by an integral quotient. -/
theorem rest_of_integerPart {a b r : ℚ} (nonzero : b ≠ 0) (rest : r = a - integerPart (a / b) * b) :
    a = integerPart (a / b) * b + r ∧ |r| < |b| ∧
      (r = 0 ∨ SignType.sign r = SignType.sign a) := by
  have part : r = (a / b - integerPart (a / b)) * b := by
    rw [rest, sub_mul, div_mul_cancel₀ _ nonzero]
  have whole : SignType.sign a = SignType.sign (a / b) * SignType.sign b := by
    rw [← sign_mul, div_mul_cancel₀ _ nonzero]
  refine ⟨by rw [rest]; ring, ?_, ?_⟩
  · rw [part, abs_mul]
    exact mul_lt_of_lt_one_left (abs_pos.2 nonzero) (abs_sub_integerPart_lt_one _)
  · rw [part, mul_eq_zero, or_iff_left nonzero, sign_mul, whole]
    exact (sign_sub_integerPart (a / b)).imp_right fun same => by rw [same]

section

variable (digit : 0 < p.digits) (ha : p.Holds a) (hb : p.Holds b) (nonzero : b.value ≠ 0)

include digit ha hb nonzero

theorem divideInteger_eq :
    p.divideInteger a b =
      if 10 ^ p.digits ≤ |integerPart (a.value / b.value)| then .error .divisionImpossible
      else if exponentBound < (Decimal.ofInt (integerPart (a.value / b.value))).adjusted then
        .error .overflow
      else .ok (.ofInt (integerPart (a.value / b.value))) := by
  obtain ⟨r, e, -, -, parts⟩ := quotientRemainder_eq digit ha.few hb.few nonzero
  unfold divideInteger
  rw [parts]
  split
  · rfl
  · rename_i short
    have few : (integerPart (a.value / b.value)).natAbs < 10 ^ p.digits := by
      rw [not_le, Int.abs_eq_natAbs] at short
      exact_mod_cast short
    rw [← check_ofInt]
    exact roundParts_of_few digit few

theorem remainder_eq :
    ∃ r : Decimal, r.value = a.value - integerPart (a.value / b.value) * b.value ∧
      p.remainder a b =
        if 10 ^ p.digits ≤ |integerPart (a.value / b.value)| then .error .divisionImpossible
        else if r.value ≠ 0 ∧ r.adjusted < -exponentBound then .error .underflow
        else .ok r := by
  obtain ⟨r, e, rest, few, parts⟩ := quotientRemainder_eq digit ha.few hb.few nonzero
  have value : (Decimal.ofParts r e).value =
      a.value - integerPart (a.value / b.value) * b.value := by
    rw [Decimal.value_ofParts, rest]
  refine ⟨.ofParts r e, value, ?_⟩
  unfold remainder
  rw [parts]
  split
  · rfl
  · rw [← check_of_lt hb.inRange (rest_of_integerPart nonzero value).2.1]
    exact roundParts_of_few digit few

/-- The integer quotient and the remainder are exact. They are refused together when the quotient is
longer than the precision; besides, a quotient overflows that is beyond the bounds of the exponents,
and a remainder underflows. -/
theorem divideInteger_remainder_exact :
    p.divideInteger a b =
        (if 10 ^ p.digits ≤ |integerPart (a.value / b.value)| then .error .divisionImpossible
        else if exponentBound < (Decimal.ofInt (integerPart (a.value / b.value))).adjusted then
          .error .overflow
        else .ok (.ofInt (integerPart (a.value / b.value)))) ∧
      ∃ r : Decimal, a.value = integerPart (a.value / b.value) * b.value + r.value ∧
        |r.value| < |b.value| ∧
        (r.value = 0 ∨ SignType.sign r.value = SignType.sign a.value) ∧
        p.remainder a b =
          if 10 ^ p.digits ≤ |integerPart (a.value / b.value)| then .error .divisionImpossible
          else if r.value ≠ 0 ∧ r.adjusted < -exponentBound then .error .underflow
          else .ok r := by
  obtain ⟨r, rest, remainder⟩ := remainder_eq digit ha hb nonzero
  obtain ⟨law, smaller, sign⟩ := rest_of_integerPart nonzero rest
  exact ⟨divideInteger_eq digit ha hb nonzero, r, law, smaller, sign, remainder⟩

end

/-- Dividing -124.213 by 2 gives -62 and leaves -0.213. -/
theorem divideInteger_remainder_negative :
    let a : Decimal := ⟨-124213, -3, .inl (by decide)⟩
    0 < working.digits ∧ working.Holds a ∧ working.Holds 2 ∧ (2 : Decimal).value ≠ 0 ∧
      working.divideInteger a 2 = .ok (-62) ∧
      working.remainder a 2 = .ok ⟨-213, -3, .inl (by decide)⟩ := by
  intro a
  have two : (2 : Decimal).value = 2 := Decimal.value_ofInt 2
  have nonzero : (2 : Decimal).value ≠ 0 := by rw [two]; norm_num
  have holdsA : working.Holds a := by decide
  have holdsB : working.Holds 2 := by decide
  obtain ⟨quotient, r, law, -, -, rest⟩ :=
    divideInteger_remainder_exact (by decide) holdsA holdsB nonzero
  have value : a.value = -124213 / 1000 := by simp [a, Decimal.value]; norm_num
  have part : integerPart (a.value / (2 : Decimal).value) = -62 := by
    have negative : a.value / (2 : Decimal).value = -(124213 / 2000) := by rw [value, two]; norm_num
    rw [negative, integerPart_neg, integerPart_of_nonneg (by norm_num)]
    norm_num
  have left : r = ⟨-213, -3, .inl (by decide)⟩ := by
    apply Decimal.value_injective
    rw [part, value, two] at law
    have same : r.value = -213 / 1000 := by push_cast at law; linarith
    rw [same]
    simp [Decimal.value]
    norm_num
  rw [part] at quotient rest
  rw [left] at rest
  rw [if_neg (by decide), if_neg (fun small => absurd small.2 (by decide))] at rest
  exact ⟨by decide, holdsA, holdsB, nonzero, quotient.trans (by decide), rest⟩

/-- With more digits than the bounds of the exponents allow, a quotient can be beyond the bounds
without being too long. -/
theorem divideInteger_of_third {m : ℕ} (holdsA : p.Holds a) (holdsB : p.Holds b)
    (nonzero : b.value ≠ 0) (digits : p.digits = m + 1) (beyond : exponentBound < m)
    (third : a.value / b.value = 10 ^ (m + 1) / 3) :
    |integerPart (a.value / b.value)| < 10 ^ p.digits ∧
      p.divideInteger a b = .error .overflow := by
  have quotient : integerPart (a.value / b.value) = (10 ^ (m + 1) / 3 : ℕ) := by
    have cut := integerPart_div (10 ^ (m + 1) : ℕ) (3 : ℕ)
    rw [Int.cast_natCast, Int.cast_natCast, ← Int.ofNat_tdiv] at cut
    rw [third, ← cut]
    push_cast
    rfl
  have power : 0 < 10 ^ m := by positivity
  have next : 10 ^ (m + 1) = 10 ^ m * 10 := pow_succ ..
  have short : |integerPart (a.value / b.value)| < 10 ^ p.digits := by
    rw [quotient, digits, Nat.abs_cast]
    exact_mod_cast (by omega : 10 ^ (m + 1) / 3 < 10 ^ (m + 1))
  have long : exponentBound < (Decimal.ofInt (10 ^ (m + 1) / 3 : ℕ)).adjusted := by
    have front : 10 ^ m ≤ 10 ^ (m + 1) / 3 := by omega
    have value := Decimal.value_ofInt (10 ^ (m + 1) / 3 : ℕ)
    rw [Int.cast_natCast] at value
    have some : (Decimal.ofInt (10 ^ (m + 1) / 3 : ℕ)).value ≠ 0 := by
      rw [value]
      exact_mod_cast (power.trans_le front).ne'
    have log : m ≤ Nat.log 10 (10 ^ (m + 1) / 3) := Nat.le_log_of_pow_le (by decide) front
    rw [Decimal.adjusted_eq_log (mt Decimal.value_eq_zero_iff.2 some), value, Nat.abs_cast,
      Int.log_natCast]
    omega
  refine ⟨short, ?_⟩
  rw [divideInteger_eq (by omega) holdsA holdsB nonzero, if_neg (not_le.2 short), quotient,
    if_pos long]

/-- A third of 10 ^ 1000001 overflows at a precision of 1000001 digits. -/
theorem divideInteger_third_overflow :
    let p : Precision := ⟨1000001⟩
    let a : Decimal := ⟨1, 999999, .inl (by decide)⟩
    let b : Decimal := ⟨3, -2, .inl (by decide)⟩
    0 < p.digits ∧ p.Holds a ∧ p.Holds b ∧ b.value ≠ 0 ∧
      |integerPart (a.value / b.value)| < 10 ^ p.digits ∧
      p.divideInteger a b = .error .overflow := by
  intro p a b
  have holdsA : p.Holds a := by decide
  have holdsB : p.Holds b := by decide
  have nonzero : b.value ≠ 0 := mt Decimal.value_eq_zero_iff.1 (by decide)
  have third : a.value / b.value = 10 ^ (1000000 + 1) / 3 := by
    have shift : (10 : ℚ) ^ (999999 : ℤ) / 10 ^ (-2 : ℤ) = 10 ^ (1000000 + 1) := by
      rw [← zpow_sub₀ (by norm_num), ← zpow_natCast]
      rfl
    change ((1 : ℤ) : ℚ) * 10 ^ (999999 : ℤ) / ((3 : ℤ) * 10 ^ (-2 : ℤ)) = _
    rw [Int.cast_one, one_mul, div_mul_eq_div_div_swap, shift, Int.cast_ofNat]
  exact ⟨by decide, holdsA, holdsB, nonzero,
    divideInteger_of_third holdsA holdsB nonzero rfl (by decide) third⟩

end Precision

end Calculator
