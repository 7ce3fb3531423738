import Mathlib.Algebra.Order.Ring.Abs
import Mathlib.Data.Int.Log
import Mathlib.Data.Rat.Floor
import Mathlib.Tactic.Linarith
import Mathlib.Tactic.Positivity
import Mathlib.Tactic.Ring
import Calculator.Decimal.Basic
import Calculator.Proofs.Decimal.Digits

/-!
# The value of a decimal number

A decimal denotes a rational number, and its exact operations are the operations on those. No two
decimals denote the same number, so an equation between decimals is an equation between values.
-/

namespace Calculator.Decimal

/-- The rational number that a decimal denotes. -/
def value (x : Decimal) : ℚ := x.coefficient * 10 ^ x.exponent

theorem ten_zpow_pos (e : ℤ) : (0 : ℚ) < 10 ^ e := zpow_pos (by norm_num) e

theorem ten_zpow_add (m n : ℤ) : (10 : ℚ) ^ (m + n) = 10 ^ m * 10 ^ n :=
  zpow_add₀ (by norm_num) m n

/-- A difference of exponents is a natural power in front of the smaller one. -/
theorem ten_zpow_eq_mul {m n : ℤ} (h : m ≤ n) :
    (10 : ℚ) ^ n = ((10 ^ (n - m).toNat : ℤ) : ℚ) * 10 ^ m := by
  obtain ⟨k, rfl⟩ := Int.le.dest h
  rw [ten_zpow_add, show (m + (k : ℤ) - m).toNat = k by omega]
  push_cast
  rw [zpow_natCast, mul_comm]

@[simp] theorem value_zero : zero.value = 0 := by simp [value, zero]

@[simp] theorem value_ofParts (c e : ℤ) : (ofParts c e).value = c * 10 ^ e := by
  unfold ofParts
  split
  · rename_i vanishes
    simp [vanishes]
  · have strip := dropZeros_mul c.natAbs.log2 c.natAbs
    have whole : (c : ℚ) = c.sign * (c.natAbs : ℤ) := by
      exact_mod_cast (Int.sign_mul_natAbs c).symm
    have strip_cast : (c.natAbs : ℚ) = (dropZeros c.natAbs.log2 c.natAbs).1 *
        10 ^ (dropZeros c.natAbs.log2 c.natAbs).2 := by
      exact_mod_cast strip.symm
    simp only [value, ten_zpow_add, zpow_natCast]
    push_cast
    rw [whole, Int.cast_natCast, strip_cast]
    ring

@[simp] theorem value_one : (1 : Decimal).value = 1 := by
  change (ofParts 1 0).value = 1
  simp

/-- Two decimals with one value are one decimal. -/
theorem value_injective {x y : Decimal} (h : x.value = y.value) : x = y := by
  wlog le : x.exponent ≤ y.exponent generalizing x y
  · exact (this h.symm (by omega)).symm
  · have scaled : x.coefficient = y.coefficient * 10 ^ (y.exponent - x.exponent).toNat := by
      rw [value, value, ten_zpow_eq_mul le, ← mul_assoc] at h
      exact_mod_cast mul_right_cancel₀ (ten_zpow_pos x.exponent).ne' h
    have redX := x.reduced
    have redY := y.reduced
    by_cases same : y.exponent = x.exponent
    · rw [same, Int.sub_self] at scaled
      exact ext_parts (by simpa using scaled) same.symm
    · -- A reduced coefficient that is a multiple of ten is zero.
      obtain ⟨k, step⟩ : ∃ k, (y.exponent - x.exponent).toNat = k + 1 :=
        ⟨(y.exponent - x.exponent).toNat - 1, by omega⟩
      rw [step, pow_succ, ← mul_assoc] at scaled
      have zeroX : x.coefficient = 0 ∧ x.exponent = 0 := by omega
      have zeroY : y.coefficient = 0 := by
        have nonzero : (10 : ℤ) ^ k ≠ 0 := pow_ne_zero k (by decide)
        have product : y.coefficient * 10 ^ k = 0 := by omega
        exact (mul_eq_zero.1 product).resolve_right nonzero
      omega

/-- Only a coefficient of zero has the value zero. -/
theorem value_eq_zero_iff {x : Decimal} : x.value = 0 ↔ x.coefficient = 0 := by
  rw [value, mul_eq_zero, or_iff_left (ten_zpow_pos _).ne']
  exact Int.cast_eq_zero

/-- The test for zero, and those for the signs, tell what the value is. -/
theorem isZero_iff_value {x : Decimal} : x.isZero = true ↔ x.value = 0 := by
  rw [value_eq_zero_iff, isZero, beq_iff_eq]

/-- Zero is written in one way only. -/
theorem isZero_iff {x : Decimal} : x.isZero = true ↔ x = zero := by
  rw [isZero_iff_value]
  constructor
  · intro h
    exact value_injective (by rw [h, value_zero])
  · rintro rfl
    exact value_zero

theorem isNegative_iff_value {x : Decimal} : x.isNegative = true ↔ x.value < 0 := by
  rw [isNegative, decide_eq_true_iff, value, mul_neg_iff]
  have pos := ten_zpow_pos x.exponent
  constructor
  · intro h
    exact .inr ⟨by exact_mod_cast h, pos⟩
  · rintro (⟨-, h⟩ | ⟨h, -⟩)
    · linarith
    · exact_mod_cast h

theorem isPositive_iff_value {x : Decimal} : x.isPositive = true ↔ 0 < x.value := by
  rw [isPositive, decide_eq_true_iff, value, mul_pos_iff_of_pos_right (ten_zpow_pos x.exponent)]
  exact_mod_cast Iff.rfl

/-- The sign is that of the coefficient. -/
theorem coefficient_nonneg {x : Decimal} (h : 0 ≤ x.value) : 0 ≤ x.coefficient := by
  simpa [isNegative] using mt isNegative_iff_value.1 (not_lt.2 h)

/-! ## Exact arithmetic -/

@[simp] theorem value_neg (x : Decimal) : (-x).value = -x.value := by
  simp [value]

@[simp] theorem value_abs (x : Decimal) : x.abs.value = |x.value| := by
  have pos := ten_zpow_pos x.exponent
  rw [value, value, abs_mul, abs_of_pos pos, ← Int.cast_abs, Int.abs_eq_natAbs]
  rfl

@[simp] theorem neg_zero_eq : -zero = zero := value_injective (by simp)

/-- A number is its magnitude under its sign. -/
theorem signed_abs (x : Decimal) : (if x.isNegative then -x.abs else x.abs) = x := by
  apply value_injective
  split
  · rename_i negative
    rw [value_neg, value_abs, abs_of_neg (isNegative_iff_value.1 negative)]
    ring
  · rename_i positive
    rw [value_abs, abs_of_nonneg (not_lt.1 (mt isNegative_iff_value.2 positive))]

theorem isNegative_abs (x : Decimal) : x.abs.isNegative = false := by
  rw [← Bool.not_eq_true, isNegative_iff_value, value_abs, not_lt]
  exact abs_nonneg _

/-- Writing a number with a smaller exponent keeps its value. -/
theorem coefficientAt_mul {x : Decimal} {e : ℤ} (le : e ≤ x.exponent) :
    (x.coefficientAt e : ℚ) * 10 ^ e = x.value := by
  unfold coefficientAt
  split
  · rename_i vanishes
    simp [value, vanishes]
  · rw [value, ten_zpow_eq_mul le, tenPow_eq]
    push_cast
    ring

/-- Sums, differences and products are exact. -/
@[simp] theorem value_add (x y : Decimal) : (x + y).value = x.value + y.value := by
  change (sum x y).value = _
  unfold sum
  split
  · rename_i vanishes
    rw [value_eq_zero_iff.2 vanishes, zero_add]
  · split
    · rename_i vanishes
      rw [value_eq_zero_iff.2 vanishes, add_zero]
    · rw [value_ofParts]
      push_cast
      rw [add_mul, coefficientAt_mul (Int.min_le_left ..), coefficientAt_mul (Int.min_le_right ..)]

@[simp] theorem value_sub (x y : Decimal) : (x - y).value = x.value - y.value := by
  change (x + -y).value = _
  rw [value_add, value_neg, sub_eq_add_neg]

@[simp] theorem value_mul (x y : Decimal) : (x * y).value = x.value * y.value := by
  change (product x y).value = _
  rw [product, value_ofParts, ten_zpow_add, value, value]
  push_cast
  ring

/-! ## Order -/

/-- The order is that of the values. -/
theorem lt_iff_value {x y : Decimal} : x < y ↔ x.value < y.value := by
  have difference : x < y ↔ (x - y).isNegative = true := decide_eq_true_iff.symm
  rw [difference, isNegative_iff_value, value_sub, sub_neg]

theorem le_iff_value {x y : Decimal} : x ≤ y ↔ x.value ≤ y.value := by
  have difference : x ≤ y ↔ ¬(x - y).isPositive = true := by
    rw [isPositive, decide_eq_true_iff, not_lt]
    rfl
  rw [difference, isPositive_iff_value, value_sub, not_lt, sub_nonpos]

/-! ## Size -/

/-- A number of few digits has a small coefficient. -/
theorem digits_le_iff {x : Decimal} {k : ℕ} (pos : 0 < k) :
    x.digits ≤ k ↔ x.coefficient.natAbs < 10 ^ k := digitCount_le_iff pos

/-- A coefficient that is not zero has its leading digit. -/
theorem pow_digits_le {x : Decimal} (nonzero : x.coefficient ≠ 0) :
    10 ^ (x.digits - 1) ≤ x.coefficient.natAbs := by
  rw [digits, digitCount_eq, Nat.add_sub_cancel]
  exact Nat.pow_log_le_self 10 (by omega)

/-- The integer part of a logarithm is the exponent of the power of ten below. -/
theorem log_eq {q : ℚ} {e : ℤ} (low : 10 ^ e ≤ q) (high : q < 10 ^ (e + 1)) :
    Int.log 10 q = e := by
  have pos : 0 < q := (ten_zpow_pos e).trans_le low
  have base : ((10 : ℕ) : ℚ) = 10 := by norm_num
  have above := (Int.zpow_le_iff_le_log (b := 10) (by decide) pos).1 (by rwa [base])
  have below := (Int.lt_zpow_iff_log_lt (b := 10) (by decide) pos).1 (by rwa [base])
  omega

/-- The leading digit of `c · 10 ^ e` stands at the exponent that the digits of `c` tell. -/
theorem log_abs {c e : ℤ} (nonzero : c ≠ 0) :
    Int.log 10 |(c : ℚ) * 10 ^ e| = e + digitCount c.natAbs - 1 := by
  have pos := ten_zpow_pos e
  have size : |(c : ℚ) * 10 ^ e| = (c.natAbs : ℚ) * 10 ^ e := by
    rw [abs_mul, abs_of_pos pos, ← Int.cast_abs, Int.abs_eq_natAbs, Int.cast_natCast]
  have low : 10 ^ Nat.log 10 c.natAbs ≤ c.natAbs := Nat.pow_log_le_self 10 (by omega)
  have high : c.natAbs < 10 ^ (Nat.log 10 c.natAbs + 1) :=
    Nat.lt_pow_succ_log_self (by decide) c.natAbs
  have exponent_eq : e + digitCount c.natAbs - 1 = (Nat.log 10 c.natAbs : ℕ) + e := by
    rw [digitCount_eq]
    push_cast
    ring
  rw [size, exponent_eq]
  refine log_eq ?_ ?_
  · rw [ten_zpow_add, zpow_natCast]
    exact mul_le_mul_of_nonneg_right (by exact_mod_cast low) pos.le
  · rw [add_right_comm, ten_zpow_add, ← Nat.cast_succ, zpow_natCast]
    exact mul_lt_mul_of_pos_right (by exact_mod_cast high) pos

/-- The place of the first digit is the integer part of the logarithm. -/
theorem adjusted_eq_log {x : Decimal} (nonzero : x.coefficient ≠ 0) :
    x.adjusted = Int.log 10 |x.value| := by
  rw [value, log_abs nonzero, adjusted, digits]

/-- The leading digit tells the magnitude. -/
theorem zpow_adjusted_le {x : Decimal} (nonzero : x.value ≠ 0) : 10 ^ x.adjusted ≤ |x.value| := by
  rw [adjusted_eq_log (mt value_eq_zero_iff.2 nonzero)]
  exact_mod_cast Int.zpow_log_le_self (by decide : 1 < 10) (abs_pos.2 nonzero)

/-- A number is below the power of ten above its first digit. -/
theorem abs_value_lt {x : Decimal} (nonzero : x.value ≠ 0) :
    |x.value| < 10 ^ (x.adjusted + 1) := by
  rw [adjusted_eq_log (mt value_eq_zero_iff.2 nonzero)]
  exact_mod_cast Int.lt_zpow_succ_log_self (by decide : 1 < 10) |x.value|

/-- The first digit is below a place exactly if the number is below that power of ten. -/
theorem adjusted_lt_iff {x : Decimal} (nonzero : x.value ≠ 0) {k : ℤ} :
    x.adjusted < k ↔ |x.value| < 10 ^ k := by
  constructor
  · intro low
    exact (abs_value_lt nonzero).trans_le (zpow_le_zpow_right₀ (by norm_num) low)
  · intro small
    have power := (zpow_adjusted_le nonzero).trans_lt small
    exact (zpow_lt_zpow_iff_right₀ (by norm_num)).1 power

end Calculator.Decimal
