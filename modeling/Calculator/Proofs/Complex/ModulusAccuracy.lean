import Calculator.Proofs.Complex.Modulus
import Calculator.Proofs.Complex.PolarForm
import Calculator.Proofs.Real.RootAccuracy

/-!
# How exact the logarithm of a modulus is

A modulus is a root of a rounded square and rounded itself, so its logarithm is off by a few roundings.
This could be much in proportion for a number close to one; but there the rounding of the square does
not show in the root, and the modulus is the absolute value.
-/

namespace Calculator

open Precision (working)
open Real (log)

namespace Complex

open Decimal

variable {b L m : Decimal}

/-! ## The modulus of a real number -/

/-- The modulus has one rounding more than the root of the square. -/
theorem abs_log_abs_sub_le (hb : b.IsWorking) (nonzero : b.value ≠ 0)
    (modulus : (ofReal b).abs = .ok m) :
    0 < m.value ∧ |log m.value - log b.value| ≤ 2 * 10 ^ (-135 : ℤ) := by
  have places : working.digits = 136 := rfl
  obtain ⟨square, sum, root⟩ := abs_eq_ok_iff.1 modulus
  rw [sqr_ofReal] at sum
  have some : |b.value| ^ 2 ≠ 0 := pow_ne_zero 2 (abs_ne_zero.2 nonzero)
  have first := abs_log_nearest_sub_le working_digits_pos some
  rw [← value_mul_self hb sum, Rat.cast_pow, Rat.cast_abs, Real.log_pow, Real.log_abs,
    places] at first
  obtain ⟨pos, second⟩ :=
    abs_log_sqrt_sub_le (isWorking_of_mul sum) (value_mul_self_pos hb nonzero sum) root
  refine ⟨pos, ?_⟩
  obtain ⟨first_low, first_high⟩ := abs_le.1 first
  obtain ⟨second_low, second_high⟩ := abs_le.1 second
  norm_num at first_low first_high second_low second_high ⊢
  rw [abs_le]
  constructor <;> linarith

/-- Near one the square is rounded too little to be seen in its root. -/
theorem abs_ofReal_of_near_one (hb : b.IsWorking) (modulus : (ofReal b).abs = .ok m)
    (low : 2 / 3 ≤ |b.value|) (high : |b.value| ≤ 4 / 3) : m = b.abs := by
  have pos : 0 < |b.value| := by linarith
  have place := adjusted_eq_log (mt value_eq_zero_iff.2 (abs_pos.1 pos))
  obtain ⟨square, sum, root⟩ := abs_eq_ok_iff.1 modulus
  rw [sqr_ofReal] at sum
  have favourable : b.value ^ 2 < 10 ^ (2 * b.adjusted + 1) ∨
      51 / 10 * 10 ^ b.adjusted ≤ |b.value| := by
    rcases lt_or_ge |b.value| 1 with below | above
    · right
      have log := (Int.lt_zpow_iff_log_lt (b := 10) (x := 0) (by decide) pos).1 (by simpa using below)
      have power : (10 : ℚ) ^ b.adjusted ≤ 10 ^ (-1 : ℤ) :=
        zpow_le_zpow_right₀ (by norm_num) (by omega)
      norm_num at power ⊢
      linarith
    · left
      have log := (Int.zpow_le_iff_le_log (b := 10) (x := 0) (by decide) pos).1 (by simpa using above)
      have power : (10 : ℚ) ^ (1 : ℤ) ≤ 10 ^ (2 * b.adjusted + 1) :=
        zpow_le_zpow_right₀ (by norm_num) (by omega)
      have square := pow_le_pow_left₀ pos.le high 2
      rw [sq_abs] at square
      norm_num at power square
      linarith
  have known := abs_ofReal_of_favourable hb sum (.inr favourable)
  rw [modulus] at known
  exact Except.ok.inj known

/-- The real part of the logarithm is off by a small part of itself. -/
theorem abs_ln_abs_sub_le (hb : b.IsWorking) (nonzero : b.value ≠ 0)
    (modulus : (ofReal b).abs = .ok m) (logarithm : m.ln = .ok L) :
    |(L.value : ℝ) - log b.value| ≤ 2 * 10 ^ (-134 : ℤ) * |log b.value| := by
  have hm : m.IsWorking := yields_abs (ofReal b) m modulus
  obtain ⟨pos, moved⟩ := abs_log_abs_sub_le hb nonzero modulus
  have near := abs_ln_sub_le hm pos logarithm
  have modulus_near : |log m.value - log b.value| ≤ 8 * 10 ^ (-135 : ℤ) * |log b.value| := by
    by_cases small : 2 / 3 ≤ |b.value| ∧ |b.value| ≤ 4 / 3
    · rw [abs_ofReal_of_near_one hb modulus small.1 small.2, value_abs, Rat.cast_abs,
        Real.log_abs, sub_self, abs_zero]
      positivity
    · have far : |(b.value : ℝ)| < 2 / 3 ∨ 4 / 3 < |(b.value : ℝ)| := by
        rcases not_and_or.1 small with below | above
        · have less := Rat.cast_lt (K := ℝ).2 (not_le.1 below)
          push_cast at less
          exact .inl less
        · have more := Rat.cast_lt (K := ℝ).2 (not_le.1 above)
          push_cast at more
          exact .inr more
      have quarter := Precision.quarter_le_abs_log
        (abs_pos.2 (by exact_mod_cast nonzero : (b.value : ℝ) ≠ 0)) far
      rw [Real.log_abs] at quarter
      calc |log m.value - log b.value| ≤ 8 * 10 ^ (-135 : ℤ) * (1 / 4) := by
            refine moved.trans_eq ?_
            ring
        _ ≤ 8 * 10 ^ (-135 : ℤ) * |log b.value| :=
            mul_le_mul_of_nonneg_left quarter (by positivity)
  have triangle := abs_sub_le (L.value : ℝ) (log m.value) (log b.value)
  have size : |log m.value| ≤ 2 * |log b.value| := by
    have split := abs_add_le (log m.value - log b.value) (log b.value)
    have part : 8 * (10 : ℝ) ^ (-135 : ℤ) * |log b.value| ≤ 1 * |log b.value| :=
      mul_le_mul_of_nonneg_right (by norm_num) (abs_nonneg _)
    rw [sub_add_cancel] at split
    linarith only [split, part, modulus_near]
  have scaled := mul_le_mul_of_nonneg_left size
    (by positivity : (0 : ℝ) ≤ 2 * 10 ^ (-135 : ℤ))
  have unit : (10 : ℝ) ^ (-134 : ℤ) = 10 * 10 ^ (-135 : ℤ) := by norm_num
  have nonneg : 0 ≤ (10 : ℝ) ^ (-135 : ℤ) * |log b.value| := by positivity
  rw [unit]
  linarith only [triangle, near, modulus_near, scaled, nonneg]

end Complex

end Calculator
