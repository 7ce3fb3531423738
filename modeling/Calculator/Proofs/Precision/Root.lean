import Mathlib.Data.Nat.Sqrt
import Calculator.Precision.Root
import Calculator.Proofs.Decimal.Decade
import Calculator.Proofs.Precision.Operations

/-!
# What the square root answers

The root is cut off after more digits than are kept and then rounded twice. A number of no more digits
than the cut-off root has is at most this root exactly when its square is at most the radicand, and
this is all that the roundings have to know about it: the root itself, which is no rational number as
a rule, is not mentioned.
-/

namespace Calculator

open Decimal (ten_zpow_pos ten_zpow_add)

/-! ## Roots of integers -/

/-- The integer part of a root is the largest integer that is not above the root. -/
theorem lt_floorRoot_sq {limit n : ℕ} (h : n < 4 ^ limit) :
    n < (floorRoot limit n + 1) * (floorRoot limit n + 1) := by
  induction limit generalizing n with
  | zero =>
    have : n = 0 := by simpa using h
    simp [floorRoot, this]
  | succ limit ih =>
    have quarter := ih (n := n / 4) (by rw [pow_succ] at h; omega)
    rw [floorRoot]
    split
    · have four : n < 4 * ((floorRoot limit (n / 4) + 1) * (floorRoot limit (n / 4) + 1)) := by
        omega
      calc n < 4 * ((floorRoot limit (n / 4) + 1) * (floorRoot limit (n / 4) + 1)) := four
        _ = (2 * floorRoot limit (n / 4) + 1 + 1) * (2 * floorRoot limit (n / 4) + 1 + 1) := by ring
    · omega

theorem floorSqrt_eq (n : ℕ) : floorSqrt n = Nat.sqrt n := by
  have enough : n < 4 ^ (n.log2 / 2 + 1) := by
    calc n < 2 ^ (n.log2 + 1) := Nat.lt_log2_self
      _ ≤ 2 ^ (2 * (n.log2 / 2 + 1)) := Nat.pow_le_pow_right (by decide) (by omega)
      _ = 4 ^ (n.log2 / 2 + 1) := Nat.pow_mul ..
  exact Nat.eq_sqrt.2 ⟨floorRoot_sq_le _ n, lt_floorRoot_sq enough⟩

namespace Precision

variable {p : Precision} {x : Decimal} {k : ℕ} {e : ℤ}

/-! ## The root that is cut off -/

/-- The root before it is rounded. -/
def cutRoot (p : Precision) (x : Decimal) : ℚ := (p.rootParts x).1 * 10 ^ (p.rootParts x).2

/-- The padding makes the radicand an integer of twice the digits times an even power of ten. -/
theorem exists_radicand (p : Precision) (pos : 0 < x.value) :
    ∃ (n : ℕ) (e : ℤ), p.cutRoot x = Nat.sqrt n * 10 ^ e ∧ x.value = n * (10 ^ e) ^ 2 ∧
      10 ^ (2 * p.digits) ≤ n := by
  have front := Decimal.pow_digits_le (mt Decimal.value_eq_zero_iff.2 pos.ne')
  obtain ⟨pad, parts, even, long⟩ : ∃ pad : ℕ,
      p.rootParts x =
        ((floorSqrt (x.coefficient.natAbs * tenPow pad) : ℤ), (x.exponent - pad) / 2) ∧
      (x.exponent - pad) % 2 = 0 ∧ 2 * (p.digits + 1) ≤ x.digits + pad := by
    unfold rootParts
    dsimp only
    split
    · rename_i even
      exact ⟨_, rfl, even, by omega⟩
    · exact ⟨_, rfl, by push_cast; omega, by omega⟩
  refine ⟨x.coefficient.natAbs * 10 ^ pad, (x.exponent - pad) / 2, ?_, ?_, ?_⟩
  · rw [cutRoot, parts, floorSqrt_eq, tenPow_eq, Int.cast_natCast]
  · have whole : (x.coefficient : ℚ) = x.coefficient.natAbs := by
      rw [← Int.cast_natCast, Int.natAbs_of_nonneg (Decimal.coefficient_nonneg pos.le)]
    have twice : x.exponent = pad + (x.exponent - pad) / 2 * 2 := by omega
    have power : (10 : ℚ) ^ x.exponent = 10 ^ pad * (10 ^ ((x.exponent - pad) / 2)) ^ 2 := by
      nth_rewrite 1 [twice]
      rw [ten_zpow_add, zpow_natCast, zpow_mul]
      rfl
    rw [Decimal.value, whole, power]
    push_cast
    ring
  · calc 10 ^ (2 * p.digits)
        ≤ 10 ^ (x.digits - 1 + pad) := Nat.pow_le_pow_right (by decide) (by omega)
      _ = 10 ^ (x.digits - 1) * 10 ^ pad := pow_add ..
      _ ≤ x.coefficient.natAbs * 10 ^ pad := Nat.mul_le_mul_right _ front

theorem cutRoot_pos (pos : 0 < x.value) : 0 < p.cutRoot x := by
  obtain ⟨n, e, root, -, long⟩ := p.exists_radicand pos
  have unit := ten_zpow_pos e
  have some : 0 < Nat.sqrt n := Nat.sqrt_pos.2 (lt_of_lt_of_le (by positivity) long)
  rw [root]
  exact mul_pos (by exact_mod_cast some) unit

/-- Numbers are compared with the root by their squares, if they have at most one digit more than the
precision. -/
theorem le_cutRoot_iff (pos : 0 < x.value) (few : k < 10 ^ (p.digits + 1)) :
    (k : ℚ) * 10 ^ e ≤ p.cutRoot x ↔ ((k : ℚ) * 10 ^ e) ^ 2 ≤ x.value := by
  obtain ⟨n, j, root, radicand, long⟩ := p.exists_radicand pos
  have unit := ten_zpow_pos j
  have full : 10 ^ p.digits ≤ Nat.sqrt n := Nat.le_sqrt'.2 (by rwa [← pow_mul, mul_comm])
  -- a multiple of the unit of the root is compared as an integer
  have whole (m : ℕ) : (m : ℚ) * 10 ^ j ≤ p.cutRoot x ↔ ((m : ℚ) * 10 ^ j) ^ 2 ≤ x.value := by
    rw [root, radicand, mul_le_mul_iff_of_pos_right unit, mul_pow,
      mul_le_mul_iff_of_pos_right (by positivity), Nat.cast_le, Nat.le_sqrt']
    exact_mod_cast Iff.rfl
  rcases le_or_gt j e with multiple | finer
  · obtain ⟨i, rfl⟩ := Int.le.dest multiple
    have split : (k : ℚ) * 10 ^ (j + i) = (k * 10 ^ i : ℕ) * 10 ^ j := by
      rw [ten_zpow_add, zpow_natCast]
      push_cast
      ring
    rw [split]
    exact whole _
  · -- with a finer unit it is smaller than every number with the digits of the root
    have small : (k : ℚ) * 10 ^ e ≤ (10 ^ p.digits : ℕ) * 10 ^ j := by
      have step : (10 : ℚ) ^ (e + 1) ≤ 10 ^ j := zpow_le_zpow_right₀ (by norm_num) finer
      have bound : (k : ℚ) ≤ 10 ^ p.digits * 10 := by exact_mod_cast (pow_succ 10 p.digits ▸ few).le
      calc (k : ℚ) * 10 ^ e ≤ 10 ^ p.digits * 10 * 10 ^ e :=
            mul_le_mul_of_nonneg_right bound (ten_zpow_pos e).le
        _ = 10 ^ p.digits * 10 ^ (e + 1) := by rw [ten_zpow_add, zpow_one]; ring
        _ ≤ (10 ^ p.digits : ℕ) * 10 ^ j := by
          push_cast
          exact mul_le_mul_of_nonneg_left step (by positivity)
    have below : ((10 ^ p.digits : ℕ) : ℚ) * 10 ^ j ≤ p.cutRoot x := by
      rw [root]
      exact mul_le_mul_of_nonneg_right (by exact_mod_cast full) unit.le
    have nonnegative : 0 ≤ (k : ℚ) * 10 ^ e := mul_nonneg k.cast_nonneg (ten_zpow_pos e).le
    exact iff_of_true (small.trans below)
      ((pow_le_pow_left₀ nonnegative small 2).trans ((whole _).1 below))

theorem cutRoot_sq_le (pos : 0 < x.value) : p.cutRoot x ^ 2 ≤ x.value := by
  obtain ⟨n, e, root, radicand, -⟩ := p.exists_radicand pos
  have square : ((Nat.sqrt n : ℕ) : ℚ) ^ 2 ≤ n := by exact_mod_cast Nat.sqrt_le' n
  rw [root, radicand, mul_pow]
  exact mul_le_mul_of_nonneg_right square (by positivity)

/-- The root is cut off by less than a unit of its last digit. -/
theorem le_sq_cutRoot (pos : 0 < x.value) :
    x.value ≤ ((1 + 10 ^ (-p.digits : ℤ)) * p.cutRoot x) ^ 2 := by
  obtain ⟨n, e, root, radicand, long⟩ := p.exists_radicand pos
  have full : 10 ^ p.digits ≤ Nat.sqrt n := Nat.le_sqrt'.2 (by rwa [← pow_mul, mul_comm])
  have next : (n : ℚ) ≤ (Nat.sqrt n + 1) ^ 2 := by exact_mod_cast (Nat.lt_succ_sqrt' n).le
  have unit : (1 : ℚ) ≤ 10 ^ (-p.digits : ℤ) * Nat.sqrt n := by
    rw [zpow_neg, zpow_natCast, ← div_eq_inv_mul, one_le_div (by positivity)]
    exact_mod_cast full
  rw [root, radicand, ← mul_assoc, mul_pow]
  refine mul_le_mul_of_nonneg_right (next.trans ?_) (by positivity)
  exact pow_le_pow_left₀ (by positivity) (by linarith) 2

/-! ## The rounded root -/

theorem lt_pow_widened (few : k < 10 ^ p.digits) : k < 10 ^ p.widened.digits :=
  few.trans_le (Nat.pow_le_pow_right (by decide) (Nat.le_add_right _ _))

/-- The root rounded to ten more digits than are kept. -/
def longRoot (p : Precision) (x : Decimal) : ℚ := nearest p.widened.digits (p.widened.cutRoot x)

theorem longRoot_pos (pos : 0 < x.value) : 0 < p.longRoot x :=
  nearest_pos p.widened_pos (cutRoot_pos pos)

/-- The root is rounded to ten more digits and then to those that are kept. -/
theorem sqrt_answers (pos : 0 < x.value) (few : x.digits ≤ p.widened.digits)
    (digit : 0 < p.digits) : Answers p.digits (p.longRoot x) (p.sqrt x) := by
  have nonzero : ¬x.isZero = true := mt Decimal.isZero_iff_value.1 pos.ne'
  have positive : ¬x.isNegative = true := mt Decimal.isNegative_iff_value.1 (not_lt.2 pos.le)
  have lifted : p.widened.lift x = x := Decimal.roundTo_eq_self few
  unfold sqrt longRoot
  rw [if_neg nonzero, if_neg positive, cutRoot]
  dsimp only
  rw [lifted, ← Decimal.value_ofPartsRounded p.widened_pos]
  exact round_answers _ digit

/-- What has the digits of the long root is not above it when its square is not above the radicand. -/
theorem le_longRoot_of_sq_le (pos : 0 < x.value) (few : k < 10 ^ p.widened.digits)
    (square : ((k : ℚ) * 10 ^ e) ^ 2 ≤ x.value) : (k : ℚ) * 10 ^ e ≤ p.longRoot x := by
  rcases k.eq_zero_or_pos with rfl | some
  · rw [Nat.cast_zero, zero_mul]
    exact (longRoot_pos pos).le
  · have more : k < 10 ^ (p.widened.digits + 1) := few.trans (Nat.pow_lt_pow_succ (by decide))
    have below := (le_cutRoot_iff pos more).2 square
    have positive : (0 : ℚ) < k * 10 ^ e := mul_pos (by exact_mod_cast some) (ten_zpow_pos e)
    rw [← nearest_natCast_mul few p.widened_pos]
    exact nearest_mono_of_pos p.widened_pos positive below

/-- The long root reaches a number of its decade when the square of half a unit less does not exceed
the radicand. -/
theorem le_longRoot_iff (pos : 0 < x.value) (low : 10 ^ (p.digits + 9) < k)
    (high : k ≤ 10 ^ (p.digits + 10)) :
    (k : ℚ) * 10 ^ e ≤ p.longRoot x ↔ (((k : ℚ) - 1 / 2) * 10 ^ e) ^ 2 ≤ x.value := by
  have some : 0 < k := Nat.zero_lt_of_lt low
  have few : 10 * k - 5 < 10 ^ (p.widened.digits + 1) := by
    have next : 10 ^ (p.widened.digits + 1) = 10 ^ (p.digits + 10) * 10 := pow_succ ..
    omega
  rw [longRoot, le_nearest_iff p.widened_pos low high (cutRoot_pos pos),
    sub_half_mul some, le_cutRoot_iff pos few]

/-- The root is rounded to a number inside a decade when the radicand lies between two squares. The
long root is compared with the halves around the number, and the cut-off root with half a unit of the
long root below them. -/
theorem nearest_longRoot_eq_iff (pos : 0 < x.value) (low : 10 ^ (p.digits - 1) < k)
    (high : k < 10 ^ p.digits) (digit : 0 < p.digits) :
    nearest p.digits (p.longRoot x) = k * 10 ^ e ↔
      (((k : ℚ) - 1 / 2 - 5 / 10 ^ 11) * 10 ^ e) ^ 2 ≤ x.value ∧
        x.value < (((k : ℚ) + 1 / 2 - 5 / 10 ^ 11) * 10 ^ e) ^ 2 := by
  have decade : 10 ^ (p.digits + 9) = 10 ^ (p.digits - 1) * 10 ^ 10 := by
    rw [← pow_add]
    congr 1
    omega
  have next : 10 ^ (p.digits + 10) = 10 ^ p.digits * 10 ^ 10 := pow_add ..
  have fine : (10 : ℚ) ^ (e - 10) = 10 ^ e / 10 ^ 10 := by
    rw [zpow_sub₀ (by norm_num)]
    norm_num
  have lower : ((k : ℚ) - 1 / 2) * 10 ^ e = (10 ^ 10 * k - 5 * 10 ^ 9 : ℕ) * 10 ^ (e - 10) := by
    rw [Nat.cast_sub (by omega), fine]
    push_cast
    ring
  have upper : ((k : ℚ) + 1 / 2) * 10 ^ e = (10 ^ 10 * k + 5 * 10 ^ 9 : ℕ) * 10 ^ (e - 10) := by
    rw [fine]
    push_cast
    ring
  have lower_half : (((10 ^ 10 * k - 5 * 10 ^ 9 : ℕ) : ℚ) - 1 / 2) * 10 ^ (e - 10) =
      ((k : ℚ) - 1 / 2 - 5 / 10 ^ 11) * 10 ^ e := by
    rw [Nat.cast_sub (by omega), fine]
    push_cast
    ring
  have upper_half : (((10 ^ 10 * k + 5 * 10 ^ 9 : ℕ) : ℚ) - 1 / 2) * 10 ^ (e - 10) =
      ((k : ℚ) + 1 / 2 - 5 / 10 ^ 11) * 10 ^ e := by
    rw [fine]
    push_cast
    ring
  rw [nearest_eq_iff digit low high (longRoot_pos pos), lower, upper, ← not_le,
    le_longRoot_iff pos (by omega) (by omega), le_longRoot_iff pos (by omega) (by omega),
    lower_half, upper_half, not_le]

end Precision

end Calculator
