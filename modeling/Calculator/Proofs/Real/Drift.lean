import Mathlib.Algebra.Order.Field.Basic
import Mathlib.Algebra.Order.Ring.Pow
import Calculator.Proofs.Real.Working

/-!
# How far roundings move a number

Rounding to `d` digits changes a number by at most five units of the digit after the last one kept,
so it multiplies it by a factor close to one. `Drift d n x y` says that `x` and `y` differ by a
factor that `n` roundings can make up, in either direction. Such factors multiply when numbers are
multiplied, divided, or computed one from the other, so only the roundings have to be counted; what
they amount to is worked out once, in `Drift.abs_sub_le`.
-/

namespace Calculator

open Decimal (ten_zpow_pos ten_zpow_add)
open Precision (working)

/-- The largest part of a number that rounding it to `d` digits can change. -/
def roundoff (d : ℕ) : ℚ := 5 * 10 ^ (-d : ℤ)

variable {d m n : ℕ} {q r x y z w : ℚ}

/-- Every precision rounds. -/
theorem roundoff_pos (d : ℕ) : 0 < roundoff d := mul_pos (by norm_num) (ten_zpow_pos _)

/-- With a digit at least a rounding does not lose everything. -/
theorem roundoff_lt_one (digit : 0 < d) : roundoff d < 1 := by
  have tenth : (10 : ℚ) ^ (-d : ℤ) ≤ 10 ^ (-1 : ℤ) := zpow_le_zpow_right₀ (by norm_num) (by omega)
  rw [roundoff]
  norm_num at tenth ⊢
  linarith

theorem roundoff_working : roundoff working.digits = 5 * 10 ^ (-136 : ℤ) := by
  have places : working.digits = 136 := rfl
  rw [roundoff, places, Nat.cast_ofNat]

theorem roundoff_widened : roundoff working.widened.digits = 5 * 10 ^ (-146 : ℤ) := by
  have places : working.widened.digits = 146 := rfl
  rw [roundoff, places, Nat.cast_ofNat]

/-- The half unit of the last place is a small part of the number. -/
theorem abs_nearest_sub_le : |nearest d q - q| ≤ roundoff d * |q| := by
  wlog pos : 0 < q generalizing q
  · rcases (not_lt.1 pos).eq_or_lt with rfl | negative
    · simp
    · have flipped := this (neg_pos.2 negative)
      rwa [nearest_neg, neg_sub_neg, abs_neg, abs_sub_comm] at flipped
  · have front : (10 : ℚ) ^ Int.log 10 q ≤ q := by
      exact_mod_cast Int.zpow_log_le_self (by decide) pos
    have half : 1 / 2 * (10 : ℚ) ^ place d q = roundoff d * 10 ^ Int.log 10 q := by
      have shift : Int.log 10 q - d + 1 = -d + (1 + Int.log 10 q) := by ring
      rw [place, abs_of_pos pos, roundoff, shift, ten_zpow_add, ten_zpow_add]
      ring
    calc |nearest d q - q| ≤ 1 / 2 * 10 ^ place d q := abs_nearest_sub_le_place pos
      _ = roundoff d * 10 ^ Int.log 10 q := half
      _ ≤ roundoff d * |q| := by
        rw [abs_of_pos pos]
        exact mul_le_mul_of_nonneg_left front (roundoff_pos d).le

/-! ## Factors of roundings -/

/-- What roundings leave is positive. -/
theorem keep_pos (digit : 0 < d) (n : ℕ) : 0 < (1 - roundoff d) ^ n :=
  pow_pos (by linarith [roundoff_lt_one digit]) n

/-- What roundings leave is no gain. -/
theorem keep_le_one (digit : 0 < d) (n : ℕ) : (1 - roundoff d) ^ n ≤ 1 :=
  pow_le_one₀ (by linarith [roundoff_lt_one digit]) (by linarith [roundoff_pos d])

/-- What `n` roundings to `d` digits, or the inverses of such, can multiply a number by. -/
structure IsRoundingFactor (d n : ℕ) (f : ℚ) : Prop where
  low : (1 - roundoff d) ^ n ≤ f
  high : f ≤ ((1 - roundoff d) ^ n)⁻¹

namespace IsRoundingFactor

variable {f g : ℚ}

/-- The factor of a rounding is positive. -/
theorem pos (digit : 0 < d) (h : IsRoundingFactor d n f) : 0 < f :=
  (keep_pos digit n).trans_le h.low

/-- No rounding at all is a rounding factor. -/
theorem one (digit : 0 < d) : IsRoundingFactor d n 1 :=
  ⟨keep_le_one digit n, (one_le_inv₀ (keep_pos digit n)).2 (keep_le_one digit n)⟩

/-- The factors are symmetric, so that quotients can be treated as products. -/
theorem inv (digit : 0 < d) (h : IsRoundingFactor d n f) : IsRoundingFactor d n f⁻¹ :=
  ⟨(le_inv_comm₀ (keep_pos digit n) (h.pos digit)).2 h.high, inv_anti₀ (keep_pos digit n) h.low⟩

/-- The factors of several roundings multiply. -/
theorem mul (digit : 0 < d) (hf : IsRoundingFactor d m f) (hg : IsRoundingFactor d n g) :
    IsRoundingFactor d (m + n) (f * g) := by
  refine ⟨?_, ?_⟩
  · rw [pow_add]
    exact mul_le_mul hf.low hg.low (keep_pos digit n).le (hf.pos digit).le
  · rw [pow_add, mul_inv]
    exact mul_le_mul hf.high hg.high (hg.pos digit).le (inv_pos.2 (keep_pos digit m)).le

/-- A single rounding goes further up in proportion than an inverse of one. -/
theorem of_abs_sub_le (digit : 0 < d) (h : |f - 1| ≤ roundoff d) : IsRoundingFactor d 1 f := by
  obtain ⟨low, high⟩ := abs_le.1 h
  have keep := keep_pos digit 1
  rw [pow_one] at keep
  refine ⟨by linarith, ?_⟩
  rw [pow_one, ← one_div, le_div_iff₀ keep]
  calc f * (1 - roundoff d) ≤ (1 + roundoff d) * (1 - roundoff d) :=
        mul_le_mul_of_nonneg_right (by linarith) keep.le
    _ = 1 - roundoff d ^ 2 := by ring
    _ ≤ 1 := sub_le_self 1 (sq_nonneg _)

/-- What `n` roundings can change, as a part of the number. -/
theorem abs_sub_one_le (digit : 0 < d) (few : 2 * n * roundoff d ≤ 1) (h : IsRoundingFactor d n f) :
    |f - 1| ≤ 2 * n * roundoff d := by
  have some : 0 ≤ n * roundoff d := mul_nonneg n.cast_nonneg (roundoff_pos d).le
  have keep : 1 - n * roundoff d ≤ (1 - roundoff d) ^ n := by
    have small : -2 ≤ -roundoff d := by linarith [roundoff_lt_one digit]
    have bernoulli := one_add_mul_le_pow small n
    rwa [mul_neg, ← sub_eq_add_neg, ← sub_eq_add_neg] at bernoulli
  have above : f ≤ 1 + 2 * n * roundoff d := by
    have pos : 0 < 1 - n * roundoff d := by linarith
    refine h.high.trans ((inv_anti₀ pos keep).trans ?_)
    rw [inv_le_iff_one_le_mul₀ pos]
    have spare : 0 ≤ n * roundoff d * (1 - 2 * n * roundoff d) := mul_nonneg some (by linarith)
    linarith
  rw [abs_le]
  exact ⟨by linarith [h.low], by linarith⟩

end IsRoundingFactor

/-- The factor between two numbers is one that `n` roundings to `d` digits can make up. -/
def Drift (d n : ℕ) (x y : ℚ) : Prop := ∃ f, IsRoundingFactor d n f ∧ x = f * y

namespace Drift

theorem refl (digit : 0 < d) (x : ℚ) : Drift d n x x := ⟨1, .one digit, (one_mul x).symm⟩

/-- What is rounded drifts as far from the result as the result from it. -/
theorem symm (digit : 0 < d) (h : Drift d n x y) : Drift d n y x := by
  obtain ⟨f, factor, rfl⟩ := h
  exact ⟨f⁻¹, factor.inv digit, (inv_mul_cancel_left₀ (factor.pos digit).ne' y).symm⟩

/-- The roundings of a computation add up. -/
theorem trans (digit : 0 < d) (h : Drift d m x y) (h' : Drift d n y z) : Drift d (m + n) x z := by
  obtain ⟨f, factor, rfl⟩ := h
  obtain ⟨g, factor', rfl⟩ := h'
  exact ⟨f * g, factor.mul digit factor', (mul_assoc f g z).symm⟩

/-- A product has the roundings of both factors. -/
theorem mul (digit : 0 < d) (h : Drift d m x y) (h' : Drift d n z w) :
    Drift d (m + n) (x * z) (y * w) := by
  obtain ⟨f, factor, rfl⟩ := h
  obtain ⟨g, factor', rfl⟩ := h'
  exact ⟨f * g, factor.mul digit factor', mul_mul_mul_comm f y g w⟩

/-- A quotient has the roundings of both operands. -/
theorem div (digit : 0 < d) (h : Drift d m x y) (h' : Drift d n z w) :
    Drift d (m + n) (x / z) (y / w) := by
  obtain ⟨f, factor, rfl⟩ := h
  obtain ⟨g, factor', rfl⟩ := h'
  refine ⟨f * g⁻¹, factor.mul digit (factor'.inv digit), ?_⟩
  rw [mul_div_mul_comm, div_eq_mul_inv f g]

/-- Roundings neither reach zero nor leave it. -/
theorem eq_zero_iff (digit : 0 < d) (h : Drift d n x y) : x = 0 ↔ y = 0 := by
  obtain ⟨f, factor, rfl⟩ := h
  rw [mul_eq_zero, or_iff_right (factor.pos digit).ne']

/-- A rounding is a single factor. -/
theorem nearest (digit : 0 < d) (q : ℚ) : Drift d 1 (nearest d q) q := by
  by_cases vanishes : q = 0
  · rw [vanishes, nearest_zero]
    exact refl digit 0
  · refine ⟨Calculator.nearest d q / q, .of_abs_sub_le digit ?_, (div_mul_cancel₀ _ vanishes).symm⟩
    have off := abs_nearest_sub_le (d := d) (q := q)
    rwa [div_sub_one vanishes, abs_div, div_le_iff₀ (abs_pos.2 vanishes)]

/-- The answer of a rounded operation is one rounding away from its exact result. -/
theorem of_answers {v : Decimal} (digit : 0 < d) (h : Precision.Answers d q (.ok v)) :
    Drift d 1 v.value q := by
  rw [h.value_eq]
  exact nearest digit q

/-- What `n` roundings can change, as a part of the number. -/
theorem abs_sub_le (digit : 0 < d) (few : 2 * n * roundoff d ≤ 1) (h : Drift d n x y) :
    |x - y| ≤ 2 * n * roundoff d * |y| := by
  obtain ⟨f, factor, rfl⟩ := h
  calc |f * y - y| = |f - 1| * |y| := by rw [← sub_one_mul, abs_mul]
    _ ≤ 2 * n * roundoff d * |y| :=
      mul_le_mul_of_nonneg_right (factor.abs_sub_one_le digit few) (abs_nonneg y)

end Drift

/-! ## Products and quotients -/

namespace Decimal

variable {a b c : Decimal}

/-- A product of working values is one rounding. -/
theorem drift_of_mul (ha : a.IsWorking) (hb : b.IsWorking) (h : a.mul b = .ok c) :
    Drift working.digits 1 c.value (a.value * b.value) := by
  have answer := mul_answers ha hb
  rw [reported_eq_ok.1 h] at answer
  exact .of_answers working_digits_pos answer

/-- A quotient of working values is one rounding. -/
theorem drift_of_div (ha : a.IsWorking) (hb : b.IsWorking) (nonzero : b.value ≠ 0)
    (h : a.div b = .ok c) : Drift working.digits 1 c.value (a.value / b.value) := by
  have answer := div_answers ha hb nonzero
  rw [reported_eq_ok.1 h] at answer
  exact .of_answers working_digits_pos answer

end Decimal

end Calculator
