import Calculator.Proofs.Real.LogarithmAccuracy

/-!
# How exact exponentials are

The unrounded exponential is off by a small factor, and its roundings are two more, so the logarithm of
an exponential is close to the argument.
-/

namespace Calculator.Precision

open Real (log)

variable {p : Precision} {x y : Decimal}

/-! ## The rounded exponential -/

/-- Rounding to ten more digits first makes little of a difference to the logarithm. -/
theorem abs_log_twice_rounded_sub_le {q : ℚ} (digit : 0 < p.digits) (nonzero : q ≠ 0) :
    |log (nearest p.digits (nearest p.widened.digits q) : ℚ) - log q| ≤
      11 / 10 * 10 ^ (1 - p.digits : ℤ) := by
  have wide := p.widened_pos
  have sum : p.widened.digits = p.digits + 10 := rfl
  have first := abs_log_nearest_sub_le wide nonzero
  have second := abs_log_nearest_sub_le digit (mt (nearest_eq_zero_iff wide).1 nonzero)
  have tenth : (10 : ℝ) ^ (1 - p.widened.digits : ℤ) ≤ 1 / 10 * 10 ^ (1 - p.digits : ℤ) :=
    zpow_le_tenth (by omega)
  refine (abs_sub_le _ (log (nearest p.widened.digits q : ℚ)) _).trans ?_
  linarith only [first, second, tenth]

/-- An exponential of an argument that is not refused. -/
theorem abs_lt_of_exp (h : p.exp x = .ok y) : |x.value| < 10 ^ 7 := by
  unfold exp at h
  split at h
  · rename_i vanishes
    rw [Decimal.isZero_iff_value.1 vanishes, abs_zero]
    norm_num
  · rename_i nonzero
    rw [Decimal.isZero_iff_value] at nonzero
    split at h
    · cases h
    · have power : (10 : ℚ) ^ (x.adjusted + 1) ≤ 10 ^ (7 : ℤ) :=
        zpow_le_zpow_right₀ (by norm_num) (by omega)
      exact (Decimal.abs_value_lt nonzero).trans_le (by exact_mod_cast power)

/-- The exponential is a number with a logarithm close to the argument, rounded twice. -/
theorem exists_exp_answers (digit : 0 < p.digits) (wide : p.digits ≤ 190)
    (few : x.digits ≤ p.widened.digits) (size : |x.value| < 10 ^ 7) :
    ∃ q : ℚ, 0 < q ∧
      |log q - x.value| ≤ 10 ^ (11 - (p.widened.digits + guardPlaces : ℕ) : ℤ) ∧
      Answers p.digits (nearest p.widened.digits q) (p.exp x) := by
  unfold exp
  split
  · rename_i vanishes
    have log_one : |log (1 : ℚ) - x.value| = 0 := by
      rw [Decimal.isZero_iff_value.1 vanishes, Rat.cast_one, Real.log_one, Rat.cast_zero, sub_zero,
        abs_zero]
    refine ⟨1, one_pos, log_one.trans_le (by positivity), ?_⟩
    rw [nearest_one p.widened_pos]
    have kept : (1 : Decimal).value = nearest p.digits 1 := by
      rw [nearest_one digit, Decimal.value_one]
    exact .value 1 kept (kept ▸ Decimal.isWorking_one.inRange)
  · rename_i nonzero
    rw [Decimal.isZero_iff_value] at nonzero
    split
    · rename_i large
      have front := Decimal.zpow_adjusted_le nonzero
      have power : (10 : ℚ) ^ (7 : ℤ) ≤ 10 ^ x.adjusted := zpow_le_zpow_right₀ (by norm_num) large
      exact absurd size (not_lt.2 (le_trans (by exact_mod_cast power) front))
    · have lifted : p.widened.lift x = x := Decimal.roundTo_eq_self few
      have sum : p.widened.digits = p.digits + 10 := rfl
      dsimp only
      rw [lifted]
      have positive := transcendentalLaws.exp_pos (p := p.widened) (by omega) size.le
      have near := transcendentalLaws.exp_near (p := p.widened) (by omega) size.le
      refine ⟨(p.widened.expParts x).1 * 10 ^ (p.widened.expParts x).2,
        mul_pos (by exact_mod_cast positive) (Decimal.ten_zpow_pos _), ?_, ?_⟩
      · push_cast
        exact near
      · have answer := round_answers (p := p) (.ofPartsRounded p.widened.digits
          (p.widened.expParts x).1 (p.widened.expParts x).2) digit
        rwa [Decimal.value_ofPartsRounded p.widened_pos] at answer

/-- An exponential is off by a small factor. -/
theorem abs_log_exp_sub_le (digit : 0 < p.digits) (wide : p.digits ≤ 190)
    (few : x.digits ≤ p.widened.digits) (h : p.exp x = .ok y) :
    0 < y.value ∧ |x.value| ≤ 10 ^ 7 ∧ |log y.value - x.value| ≤ 2 * 10 ^ (1 - p.digits : ℤ) := by
  have size := abs_lt_of_exp h
  obtain ⟨q, pos, near, answer⟩ := exists_exp_answers digit wide few size
  rw [h] at answer
  have value := answer.value_eq
  have rounded := abs_log_twice_rounded_sub_le digit pos.ne'
  rw [← value] at rounded
  have sum : p.widened.digits = p.digits + 10 := rfl
  have guard : (10 : ℝ) ^ (11 - (p.widened.digits + guardPlaces : ℕ) : ℤ) ≤
      1 / 10 * 10 ^ (1 - p.digits : ℤ) :=
    zpow_le_tenth (by have guard : guardPlaces = 40 := rfl; omega)
  refine ⟨value ▸ nearest_pos digit (nearest_pos p.widened_pos pos), size.le, ?_⟩
  have unit_pos : (0 : ℝ) < 10 ^ (1 - p.digits : ℤ) := by positivity
  linarith only [rounded, near, guard, abs_sub_le (log y.value) (log q) x.value, unit_pos]

end Calculator.Precision

namespace Calculator

open Real (log)

theorem le_log_ten : 9 / 4 ≤ log 10 := by
  have two := Real.log_two_gt_d9
  have power := Real.log_le_log (by norm_num) (by norm_num : (2 : ℝ) ^ 33 ≤ 10 ^ 10)
  rw [Real.log_pow, Real.log_pow] at power
  push_cast at power
  linarith

/-- The size of a number, seen by the logarithm. -/
theorem within_of_abs_log_le {q : ℚ} {e : ℕ} (pos : 0 < q) (h : |log q| ≤ e * (9 / 4)) :
    Within e q := by
  have ten := mul_le_mul_of_nonneg_left le_log_ten e.cast_nonneg
  have real : (0 : ℝ) < q := by exact_mod_cast pos
  obtain ⟨low, high⟩ := abs_le.1 h
  rw [Within, abs_of_pos pos]
  refine .inr ⟨?_, ?_⟩
  · have below : log (10 ^ (-e : ℤ)) ≤ log q := by
      rw [Real.log_zpow]
      push_cast
      linarith
    have cast := (Real.log_le_log_iff (by positivity) real).1 below
    rw [← Rat.cast_le (K := ℝ)]
    push_cast
    exact cast
  · have above : log q ≤ log (10 ^ e) := by
      rw [Real.log_pow]
      linarith
    have cast := (Real.log_le_log_iff real (by positivity)).1 above
    exact_mod_cast cast

end Calculator

namespace Calculator.Decimal

open Precision (working exponentBound)
open Real (log)

variable {x y : Decimal}

/-- An argument of up to a million has an exponential: a number with a logarithm close to it, rounded
twice. -/
theorem exists_exp (hx : x.IsWorking) (bounded : |x.value| ≤ 10 ^ 6) :
    ∃ (y : Decimal) (q : ℚ), x.exp = .ok y ∧ 0 < q ∧ |log q - x.value| ≤ 10 ^ (-175 : ℤ) ∧
      y.value = nearest working.digits (nearest working.widened.digits q) ∧
      Within 450000 y.value := by
  have places : working.digits = 136 := rfl
  have top : exponentBound.toNat = 999999 := rfl
  obtain ⟨q, pos, near, answer⟩ := Precision.exists_exp_answers working_digits_pos (by omega)
    hx.digits_le_widened (bounded.trans_lt (by norm_num))
  have unit : (11 - (working.widened.digits + Precision.guardPlaces : ℕ) : ℤ) = -175 := rfl
  rw [unit] at near
  have argument : |(x.value : ℝ)| ≤ 10 ^ 6 := by exact_mod_cast bounded
  have size : |log q| ≤ (450000 : ℕ) * (9 / 4) := by
    have triangle := abs_add_le (log q - x.value) x.value
    rw [sub_add_cancel] at triangle
    norm_num at near argument triangle ⊢
    linarith
  have within := (within_of_abs_log_le pos size).rounded working.widened_pos
  obtain ⟨y, reported, value⟩ :=
    exists_reported working_digits_pos answer (within.mono (by omega))
  exact ⟨y, q, liftM_eq_ok.2 reported, pos, near, value,
    value ▸ within.rounded working_digits_pos⟩

theorem abs_log_exp_sub_le (hx : x.IsWorking) (h : x.exp = .ok y) :
    0 < y.value ∧ |x.value| ≤ 10 ^ 7 ∧ |log y.value - x.value| ≤ 2 * 10 ^ (-135 : ℤ) := by
  have places : working.digits = 136 := rfl
  have near := Precision.abs_log_exp_sub_le working_digits_pos (by omega) hx.digits_le_widened
    (reported_eq_ok.1 (liftM_eq_ok.1 h))
  rwa [places] at near

end Calculator.Decimal
