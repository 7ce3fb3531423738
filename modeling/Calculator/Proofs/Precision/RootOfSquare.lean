import Calculator.Proofs.Precision.Root

/-!
# Roots of squares

The root of a square that needs no rounding is the number itself. The root of a rounded square need
not be: for a number with a leading part between the root of ten and five, the square is rounded at a
place that is coarse enough to move the root to the next number. It does not fall further than that,
and so a quotient of the number by the root is not rounded to more than one.
-/

namespace Calculator.Precision

open Decimal (ten_zpow_pos ten_zpow_add)

variable {p : Precision} {x : Decimal} {k n : ℕ} {e : ℤ}

/-! ## Exact squares -/

/-- An exact square has an exact root. -/
theorem longRoot_of_sq (few : k < 10 ^ p.digits) (some : 0 < k)
    (square : x.value = ((k : ℚ) * 10 ^ e) ^ 2) : p.longRoot x = k * 10 ^ e := by
  have positive : (0 : ℚ) < k * 10 ^ e := mul_pos (by exact_mod_cast some) (ten_zpow_pos e)
  have pos : 0 < x.value := square ▸ pow_pos positive 2
  have more := lt_pow_widened few
  have cut : p.widened.cutRoot x = k * 10 ^ e := by
    refine le_antisymm ?_ ?_
    · have squares := cutRoot_sq_le (p := p.widened) pos
      rw [square] at squares
      exact (pow_le_pow_iff_left₀ (cutRoot_pos pos).le positive.le two_ne_zero).1 squares
    · exact (le_cutRoot_iff pos (more.trans (Nat.pow_lt_pow_succ (by decide)))).2 square.ge
  rw [longRoot, cut, nearest_natCast_mul more p.widened_pos]

/-- The square of a power of ten needs no rounding. -/
theorem nearest_sq_pow {d : ℕ} (digit : 0 < d) (n : ℕ) (e : ℤ) :
    nearest d ((((10 ^ n : ℕ) : ℚ) * 10 ^ e) ^ 2) = (((10 ^ n : ℕ) : ℚ) * 10 ^ e) ^ 2 := by
  have square : (((10 ^ n : ℕ) : ℚ) * 10 ^ e) ^ 2 = 10 ^ (2 * n) * 10 ^ (e * 2) := by
    rw [zpow_mul]
    push_cast
    rw [mul_pow, pow_mul']
    rfl
  rw [square, nearest_pow_mul digit]

theorem le_nearest_longRoot_of_sq_le (pos : 0 < x.value) (some : 0 < k) (few : k < 10 ^ p.digits)
    (digit : 0 < p.digits) (square : ((k : ℚ) * 10 ^ e) ^ 2 ≤ x.value) :
    (k : ℚ) * 10 ^ e ≤ nearest p.digits (p.longRoot x) := by
  have positive : (0 : ℚ) < k * 10 ^ e := mul_pos (by exact_mod_cast some) (ten_zpow_pos e)
  rw [← nearest_natCast_mul few digit]
  exact nearest_mono_of_pos digit positive (le_longRoot_of_sq_le pos (lt_pow_widened few) square)

/-! ## Rounded squares -/

/-- A square is rounded by at most half a unit of the place that its size tells. -/
theorem abs_nearest_sq_sub_le {d : ℕ} (some : 0 < k) (few : k ^ 2 < 10 ^ (d + n)) :
    |nearest d (((k : ℚ) * 10 ^ e) ^ 2) - ((k : ℚ) * 10 ^ e) ^ 2| ≤
      1 / 2 * 10 ^ n * (10 ^ e) ^ 2 := by
  have unit : (0 : ℚ) < (10 ^ e) ^ 2 := pow_pos (ten_zpow_pos e) 2
  have place : (10 : ℚ) ^ ((n : ℤ) + e * 2) = 10 ^ n * (10 ^ e) ^ 2 := by
    rw [ten_zpow_add, zpow_natCast, zpow_mul]
    rfl
  have size : ((k : ℚ) * 10 ^ e) ^ 2 < 10 ^ d * 10 ^ ((n : ℤ) + e * 2) := by
    have bound : (k : ℚ) ^ 2 < 10 ^ d * 10 ^ n := by
      rw [← pow_add]
      exact_mod_cast few
    rw [place, mul_pow, ← mul_assoc]
    exact mul_lt_mul_of_pos_right bound unit
  have positive : (0 : ℚ) < k * 10 ^ e := mul_pos (by exact_mod_cast some) (ten_zpow_pos e)
  have off := abs_nearest_sub_le_half (pow_pos positive 2) size
  rwa [place, ← mul_assoc] at off

theorem sq_lt_pow_add {d : ℕ} (h : k < 10 ^ d) : k ^ 2 < 10 ^ (d + d) := by
  rw [pow_add, pow_two]
  exact Nat.mul_self_lt_mul_self h

/-- With a leading part below the root of ten or from 5.1 on, a rounded square has the root that the
square has. -/
theorem nearest_longRoot_of_nearest_sq (pos : 0 < x.value) (low : 10 ^ (p.digits - 1) < k)
    (high : k < 10 ^ p.digits) (digit : 2 < p.digits)
    (leading : k ^ 2 < 10 ^ (p.digits + (p.digits - 1)) ∨ 51 * 10 ^ (p.digits - 1) ≤ 10 * k)
    (radicand : x.value = nearest p.digits (((k : ℚ) * 10 ^ e) ^ 2)) :
    nearest p.digits (p.longRoot x) = k * 10 ^ e := by
  have unit : (0 : ℚ) < (10 ^ e) ^ 2 := pow_pos (ten_zpow_pos e) 2
  have some : 0 < k := Nat.zero_lt_of_lt low
  have least : (10 : ℚ) ^ (p.digits - 1) ≤ k := by exact_mod_cast low.le
  have hundred : (100 : ℚ) ≤ k := by
    have two : 10 ^ 2 ≤ 10 ^ (p.digits - 1) := Nat.pow_le_pow_right (by decide) (by omega)
    exact_mod_cast two.trans low.le
  -- the square is moved by less than it differs from the squares of the halves around the number
  have off : |x.value - ((k : ℚ) * 10 ^ e) ^ 2| ≤ 50 / 51 * (k : ℚ) * (10 ^ e) ^ 2 := by
    rw [radicand]
    rcases leading with front | back
    · refine (abs_nearest_sq_sub_le some front).trans ?_
      exact mul_le_mul_of_nonneg_right (by linarith) unit.le
    · have size := sq_lt_pow_add high
      have part : (51 : ℚ) * 10 ^ (p.digits - 1) ≤ 10 * k := by exact_mod_cast back
      refine (abs_nearest_sq_sub_le some size).trans ?_
      rw [← pow_sub_one_mul (by omega) (10 : ℚ)]
      exact mul_le_mul_of_nonneg_right (by linarith) unit.le
  obtain ⟨lower, upper⟩ := abs_le.1 off
  have below : ((k : ℚ) - 1 / 2 - 5 / 10 ^ 11) ^ 2 ≤ (k : ℚ) ^ 2 - 50 / 51 * k := by nlinarith
  have above : (k : ℚ) ^ 2 + 50 / 51 * k < ((k : ℚ) + 1 / 2 - 5 / 10 ^ 11) ^ 2 := by nlinarith
  have least_square := mul_le_mul_of_nonneg_right below unit.le
  have most_square := mul_lt_mul_of_pos_right above unit
  rw [mul_pow] at lower upper
  refine (nearest_longRoot_eq_iff pos low high (by omega)).2 ⟨?_, ?_⟩
  · rw [mul_pow]
    linarith
  · rw [mul_pow]
    linarith

section

variable (pos : 0 < x.value) (low : 10 ^ (p.digits - 1) ≤ k) (high : k < 10 ^ p.digits)

include pos low high

/-- With a leading part below three the root does not fall below the number: half a unit less than
the number has a square that is smaller than its rounded square. -/
theorem le_nearest_longRoot (digit : 0 < p.digits) (front : k < 3 * 10 ^ (p.digits - 1))
    (radicand : nearest p.digits (((k : ℚ) * 10 ^ e) ^ 2) ≤ x.value) :
    (k : ℚ) * 10 ^ e ≤ nearest p.digits (p.longRoot x) := by
  have unit := ten_zpow_pos e
  have some : 0 < k := lt_of_lt_of_le (by positivity) low
  rcases low.eq_or_lt with rfl | inside
  · rw [nearest_sq_pow digit] at radicand
    exact le_nearest_longRoot_of_sq_le pos some high digit radicand
  · have half := sub_half_mul some e
    have few : 10 * k - 5 < 10 ^ p.widened.digits := by
      have next : 10 ^ p.widened.digits = 10 ^ p.digits * 10 ^ 10 := pow_add ..
      omega
    have size : k ^ 2 < 10 ^ (p.digits + (p.digits - 1)) := by
      have decade : 10 ^ (p.digits + (p.digits - 1)) =
          10 * 10 ^ (p.digits - 1) * 10 ^ (p.digits - 1) := by
        rw [← pow_succ', ← pow_add]
        congr 1
        omega
      rw [decade]
      nlinarith
    have off := abs_le.1 (abs_nearest_sq_sub_le (e := e) some size)
    have least : (10 : ℚ) ^ (p.digits - 1) ≤ k := by exact_mod_cast low
    have one : (1 : ℚ) ≤ k := by exact_mod_cast some
    have part : 1 / 2 * 10 ^ (p.digits - 1) * ((10 : ℚ) ^ e) ^ 2 ≤
        ((k : ℚ) - 1 / 4) * (10 ^ e) ^ 2 :=
      mul_le_mul_of_nonneg_right (by linarith) (by positivity)
    rw [le_nearest_iff digit inside high.le (longRoot_pos pos), half]
    refine le_longRoot_of_sq_le pos few ?_
    rw [← half]
    calc (((k : ℚ) - 1 / 2) * 10 ^ e) ^ 2
        = ((k : ℚ) * 10 ^ e) ^ 2 - ((k : ℚ) - 1 / 4) * (10 ^ e) ^ 2 := by ring
      _ ≤ ((k : ℚ) * 10 ^ e) ^ 2 - 1 / 2 * 10 ^ (p.digits - 1) * (10 ^ e) ^ 2 := by linarith
      _ ≤ nearest p.digits (((k : ℚ) * 10 ^ e) ^ 2) := by linarith [off.1]
      _ ≤ x.value := radicand

/-- With a larger leading part it falls by one unit at most. -/
theorem pred_le_nearest_longRoot (digit : 0 < p.digits) (back : 3 * 10 ^ (p.digits - 1) ≤ k)
    (radicand : nearest p.digits (((k : ℚ) * 10 ^ e) ^ 2) ≤ x.value) :
    ((k : ℚ) - 1) * 10 ^ e ≤ nearest p.digits (p.longRoot x) := by
  have unit := ten_zpow_pos e
  have front : 0 < 10 ^ (p.digits - 1) := by positivity
  have pred : ((k : ℚ) - 1) * 10 ^ e = (k - 1 : ℕ) * 10 ^ e := by
    rw [Nat.cast_sub (by omega), Nat.cast_one]
  have size := sq_lt_pow_add high
  have off := abs_le.1 (abs_nearest_sq_sub_le (e := e) (by omega) size)
  have least : (3 : ℚ) * 10 ^ (p.digits - 1) ≤ k := by exact_mod_cast back
  have one : (1 : ℚ) ≤ 10 ^ (p.digits - 1) := by exact_mod_cast front
  have part : 1 / 2 * 10 ^ p.digits * ((10 : ℚ) ^ e) ^ 2 ≤ (2 * (k : ℚ) - 1) * (10 ^ e) ^ 2 :=
    mul_le_mul_of_nonneg_right (by rw [← pow_sub_one_mul digit.ne']; linarith) (by positivity)
  rw [pred]
  refine le_nearest_longRoot_of_sq_le pos (by omega) (by omega) digit ?_
  rw [← pred]
  calc (((k : ℚ) - 1) * 10 ^ e) ^ 2
      = ((k : ℚ) * 10 ^ e) ^ 2 - (2 * (k : ℚ) - 1) * (10 ^ e) ^ 2 := by ring
    _ ≤ ((k : ℚ) * 10 ^ e) ^ 2 - 1 / 2 * 10 ^ p.digits * (10 ^ e) ^ 2 := by linarith
    _ ≤ nearest p.digits (((k : ℚ) * 10 ^ e) ^ 2) := by linarith [off.1]
    _ ≤ x.value := radicand

/-- A number is divided by the root of its rounded square, or of more than that, to one at most. -/
theorem nearest_div_nearest_longRoot_le_one (digit : 1 < p.digits)
    (radicand : nearest p.digits (((k : ℚ) * 10 ^ e) ^ 2) ≤ x.value) :
    nearest p.digits ((k : ℚ) * 10 ^ e / nearest p.digits (p.longRoot x)) ≤ 1 := by
  have unit := ten_zpow_pos e
  have some : 0 < k := lt_of_lt_of_le (by positivity) low
  have positive : (0 : ℚ) < k * 10 ^ e := mul_pos (by exact_mod_cast some) unit
  have root : 0 < nearest p.digits (p.longRoot x) := nearest_pos (by omega) (longRoot_pos pos)
  have shift : ((10 ^ (p.digits - 1) : ℕ) : ℚ) * 10 ^ (-(p.digits - 1 : ℕ) : ℤ) = 1 := by
    rw [zpow_neg, zpow_natCast]
    push_cast
    exact mul_inv_cancel₀ (by positivity)
  -- less than half a unit above one is enough, and a root that falls by one unit leaves less
  have below : (k : ℚ) * 10 ^ e <
      (1 + 1 / 2 * 10 ^ (-(p.digits - 1 : ℕ) : ℤ)) * nearest p.digits (p.longRoot x) := by
    have half := ten_zpow_pos (-(p.digits - 1 : ℕ) : ℤ)
    rcases lt_or_ge k (3 * 10 ^ (p.digits - 1)) with front | back
    · have reaches := le_nearest_longRoot pos low high (by omega) front radicand
      nlinarith
    · have reaches := pred_le_nearest_longRoot pos low high (by omega) back radicand
      have least : (3 : ℚ) * (10 ^ (p.digits - 1) : ℕ) ≤ k := by exact_mod_cast back
      have share : 3 ≤ (k : ℚ) * 10 ^ (-(p.digits - 1 : ℕ) : ℤ) := by
        calc (3 : ℚ) = 3 * (10 ^ (p.digits - 1) : ℕ) * 10 ^ (-(p.digits - 1 : ℕ) : ℤ) := by
              rw [mul_assoc, shift, mul_one]
          _ ≤ k * 10 ^ (-(p.digits - 1 : ℕ) : ℤ) := mul_le_mul_of_nonneg_right least half.le
      have small : (10 : ℚ) ^ (-(p.digits - 1 : ℕ) : ℤ) < 1 :=
        zpow_lt_one_of_neg₀ (by norm_num) (by omega)
      calc (k : ℚ) * 10 ^ e
          < (1 + 1 / 2 * 10 ^ (-(p.digits - 1 : ℕ) : ℤ)) * (k - 1) * 10 ^ e :=
            mul_lt_mul_of_pos_right (by linarith) unit
        _ = (1 + 1 / 2 * 10 ^ (-(p.digits - 1 : ℕ) : ℤ)) * ((k - 1) * 10 ^ e) := by ring
        _ ≤ (1 + 1 / 2 * 10 ^ (-(p.digits - 1 : ℕ) : ℤ)) * nearest p.digits (p.longRoot x) :=
            mul_le_mul_of_nonneg_left reaches (by positivity)
  refine le_of_le_of_eq ?_ shift
  rw [nearest_le_iff (by omega) le_rfl (Nat.pow_lt_pow_right (by decide) (by omega))
    (div_pos positive root), div_lt_iff₀ root, add_mul _ _ (10 ^ _), shift]
  exact below

end

end Calculator.Precision
