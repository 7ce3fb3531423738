import Mathlib.Analysis.SpecialFunctions.Log.Basic
import Mathlib.Analysis.SpecialFunctions.Exp
import Calculator.Proofs.Real.Drift

/-!
# Roundings seen by the logarithm

A factor close to one adds little to the logarithm, and what several of them add is added up. So the
distance of two logarithms measures how far roundings, roots, powers and exponentials have moved a
number, and it turns into a part of the number at the end.
-/

namespace Calculator

open Real (log exp)

variable {d n : ℕ} {x y : ℚ} {a b c δ κ : ℝ}

/-- The logarithm of a number near one. -/
theorem abs_log_le_of_near_one (near : |c - 1| ≤ κ) (small : κ ≤ 1 / 2) : |log c| ≤ 2 * κ := by
  obtain ⟨low, high⟩ := abs_le.1 near
  have pos : 0 < c := by linarith
  have above := Real.log_le_sub_one_of_pos pos
  have below := Real.one_sub_inv_le_log_of_pos pos
  have inverse : c⁻¹ ≤ 1 + 2 * κ := by
    have nonneg : 0 ≤ κ := (abs_nonneg _).trans near
    rw [inv_le_iff_one_le_mul₀ pos]
    nlinarith
  exact abs_le.2 ⟨by linarith, by linarith⟩

theorem roundoff_le_half (digit : 0 < d) : ((roundoff d : ℚ) : ℝ) ≤ 1 / 2 := by
  have tenth : (10 : ℚ) ^ (-d : ℤ) ≤ 10 ^ (-1 : ℤ) := zpow_le_zpow_right₀ (by norm_num) (by omega)
  have half : roundoff d ≤ 1 / 2 := by
    rw [roundoff]
    norm_num at tenth ⊢
    linarith
  calc ((roundoff d : ℚ) : ℝ) ≤ ((1 / 2 : ℚ) : ℝ) := Rat.cast_le.2 half
    _ = 1 / 2 := by norm_num

theorem two_mul_roundoff (d : ℕ) : 2 * ((roundoff d : ℚ) : ℝ) = 10 ^ (1 - d : ℤ) := by
  rw [roundoff, sub_eq_add_neg, zpow_add₀ (by norm_num)]
  push_cast
  ring

/-- Every rounding moves the logarithm by a unit of the last place at most. -/
theorem Drift.abs_log_sub_le (digit : 0 < d) (nonzero : y ≠ 0) (h : Drift d n x y) :
    |log x - log y| ≤ n * 10 ^ (1 - d : ℤ) := by
  obtain ⟨f, factor, rfl⟩ := h
  have pos : (0 : ℝ) < f := by exact_mod_cast factor.pos digit
  have some : (y : ℝ) ≠ 0 := by exact_mod_cast nonzero
  have split : log ((f * y : ℚ) : ℝ) - log y = log f := by
    rw [Rat.cast_mul, Real.log_mul pos.ne' some]
    ring
  have keep : |log (1 - (roundoff d : ℚ))| ≤ 10 ^ (1 - d : ℤ) := by
    have near : |(1 - ((roundoff d : ℚ) : ℝ)) - 1| ≤ (roundoff d : ℚ) := by
      rw [sub_sub_cancel_left, abs_neg, abs_of_pos (by exact_mod_cast roundoff_pos d)]
    rw [← two_mul_roundoff]
    exact abs_log_le_of_near_one near (roundoff_le_half digit)
  have base : (0 : ℝ) < (1 - (roundoff d : ℚ)) ^ n := by exact_mod_cast keep_pos digit n
  have low : (1 - ((roundoff d : ℚ) : ℝ)) ^ n ≤ f := by exact_mod_cast factor.low
  have high : (f : ℝ) ≤ ((1 - ((roundoff d : ℚ) : ℝ)) ^ n)⁻¹ := by exact_mod_cast factor.high
  have below := Real.log_le_log base low
  have above := Real.log_le_log pos high
  rw [Real.log_inv] at above
  rw [Real.log_pow] at below above
  have scaled := mul_le_mul_of_nonneg_left (neg_le_of_abs_le keep) n.cast_nonneg
  rw [split, abs_le]
  constructor <;> linarith

/-- A single rounding. -/
theorem abs_log_nearest_sub_le (digit : 0 < d) (nonzero : x ≠ 0) :
    |log (nearest d x : ℚ) - log x| ≤ 10 ^ (1 - d : ℤ) := by
  have rounded := (Drift.nearest digit x).abs_log_sub_le digit nonzero
  rwa [Nat.cast_one, one_mul] at rounded

/-- Numbers whose logarithms are close differ by a small part. -/
theorem abs_sub_le_of_abs_log_sub_le (ha : 0 < a) (hb : 0 < b) (small : δ ≤ 1)
    (close : |log a - log b| ≤ δ) : |a - b| ≤ (δ + δ ^ 2) * b := by
  have nonneg : 0 ≤ δ := (abs_nonneg _).trans close
  have quotient : a = exp (log a - log b) * b := by
    rw [Real.exp_sub, Real.exp_log ha, Real.exp_log hb, div_mul_cancel₀ _ hb.ne']
  have second := Real.abs_exp_sub_one_sub_id_le (close.trans small)
  have square : (log a - log b) ^ 2 ≤ δ ^ 2 := by
    rw [← sq_abs]
    exact pow_le_pow_left₀ (abs_nonneg _) close 2
  have change : |exp (log a - log b) - 1| ≤ δ + δ ^ 2 := by
    have triangle := abs_add_le (exp (log a - log b) - 1 - (log a - log b)) (log a - log b)
    rw [sub_add_cancel] at triangle
    linarith
  calc |a - b| = |exp (log a - log b) - 1| * b := by
        nth_rewrite 1 [quotient]
        rw [← sub_one_mul, abs_mul, abs_of_pos hb]
    _ ≤ (δ + δ ^ 2) * b := mul_le_mul_of_nonneg_right change hb.le

/-! ## Parts of a number -/

/-- A product that is off by a part of itself, with a factor that is off by a part of itself. -/
theorem abs_sub_mul_le {p l ε η : ℝ} (product : |p - a * l| ≤ η * |a * l|)
    (factor : |l - b| ≤ ε * |b|) (nonneg : 0 ≤ η) :
    |p - a * b| ≤ (η * (1 + ε) + ε) * |a * b| := by
  have scaled := mul_le_mul_of_nonneg_left factor (abs_nonneg a)
  have size : |a * l| ≤ (1 + ε) * |a * b| :=
    calc |a * l| = |a * (l - b) + a * b| := by rw [← mul_add, sub_add_cancel]
      _ ≤ |a| * |l - b| + |a * b| := (abs_add_le _ _).trans_eq (by rw [abs_mul a (l - b)])
      _ ≤ |a| * (ε * |b|) + |a * b| := by linarith only [scaled]
      _ = (1 + ε) * |a * b| := by
        rw [abs_mul a b]
        ring
  calc |p - a * b| = |p - a * l + a * (l - b)| := by
        congr 1
        ring
    _ ≤ |p - a * l| + |a| * |l - b| := (abs_add_le _ _).trans_eq (by rw [abs_mul a (l - b)])
    _ ≤ η * ((1 + ε) * |a * b|) + |a| * (ε * |b|) :=
        add_le_add (product.trans (mul_le_mul_of_nonneg_left size nonneg)) scaled
    _ = (η * (1 + ε) + ε) * |a * b| := by
        rw [abs_mul a b]
        ring

/-- What is off by a small part of itself and has a bounded approximation is off by little. -/
theorem abs_sub_le_of_bounded {ε : ℝ} (near : |a - b| ≤ ε * |b|) (nonneg : 0 ≤ ε)
    (small : ε ≤ 1 / 2) (bounded : |a| ≤ c) : |a - b| ≤ ε * (2 * c) := by
  have triangle := abs_sub_le b a 0
  rw [sub_zero, sub_zero, abs_sub_comm] at triangle
  have half := near.trans (mul_le_mul_of_nonneg_right small (abs_nonneg b))
  exact near.trans (mul_le_mul_of_nonneg_left (by linarith) nonneg)

end Calculator
