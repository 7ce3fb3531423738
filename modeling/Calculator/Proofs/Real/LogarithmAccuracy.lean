import Calculator.Proofs.Precision.TranscendentalLaws
import Calculator.Proofs.Real.PowerDrift

/-!
# How exact logarithms are

The unrounded logarithm has guard places enough, so the two roundings at the end are all that counts: a
logarithm is off by a small part of itself, and every positive number has one.
-/

namespace Calculator.Precision

open Real (log)

variable {p : Precision} {x y : Decimal}

/-! ## The rounded logarithm -/

/-- Rounding to ten more digits first makes little of a difference. -/
theorem abs_twice_rounded_sub_le (p : Precision) (q : ℚ) :
    |((nearest p.digits (nearest p.widened.digits q) : ℚ) : ℝ) - q| ≤
      3 / 2 * 10 ^ (1 - p.digits : ℤ) * |(q : ℝ)| := by
  have wide := p.widened_pos
  have small := roundoff_le_half wide
  have rounded := abs_nearest_sub_le_of_drift (m := p.digits) (n := 1) wide
    (by
      have half : roundoff p.widened.digits ≤ 1 / 2 := by
        have cast : ((roundoff p.widened.digits : ℚ) : ℝ) ≤ ((1 / 2 : ℚ) : ℝ) := by
          push_cast
          exact small
        exact Rat.cast_le.1 cast
      push_cast
      linarith) (Drift.nearest wide q)
  have bound := Rat.cast_le (K := ℝ).2 rounded
  push_cast at bound
  have outer := two_mul_roundoff p.digits
  have inner := two_mul_roundoff p.widened.digits
  have sum : p.widened.digits = p.digits + 10 := rfl
  have pos : (0 : ℝ) < 10 ^ (1 - p.digits : ℤ) := by positivity
  have tenth : (10 : ℝ) ^ (1 - p.widened.digits : ℤ) ≤ 1 / 10 * 10 ^ (1 - p.digits : ℤ) :=
    zpow_le_tenth (by omega)
  refine bound.trans (mul_le_mul_of_nonneg_right ?_ (abs_nonneg _))
  linarith

/-- Two roundings and a last part of a digit that the series leaves. -/
theorem abs_sub_le_of_twice_rounded {r c l u : ℝ} (rounded : |r - c| ≤ 3 / 2 * u * |c|)
    (close : |c - l| ≤ 1 / 10 * u * |l|) (pos : 0 < u) (small : u ≤ 1) : |r - l| ≤ 2 * u * |l| := by
  have nonneg := abs_nonneg l
  have tenth : 1 / 10 * u * |l| ≤ 1 / 10 * |l| := mul_le_mul_of_nonneg_right (by linarith) nonneg
  have size := abs_add_le (c - l) l
  rw [sub_add_cancel] at size
  have scaled := mul_le_mul_of_nonneg_left
    (by linarith : |c| ≤ 11 / 10 * |l|) (by linarith : 0 ≤ 3 / 2 * u)
  have positive := mul_nonneg pos.le nonneg
  linarith [abs_sub_le r c l]

/-- Of a positive number but one the logarithm is a number close to the exact one, rounded twice. -/
theorem exists_ln_answers (digit : 0 < p.digits) (wide : p.digits ≤ 190)
    (few : x.digits ≤ p.widened.digits) (size : |x.adjusted| ≤ 10 ^ 6) (pos : 0 < x.value)
    (other : x ≠ 1) :
    ∃ q : ℚ, |(q : ℝ) - log x.value| ≤
        10 ^ (11 - (p.widened.digits + guardPlaces : ℕ) : ℤ) * |log x.value| ∧
      Answers p.digits (nearest p.widened.digits q) (p.ln x) := by
  have positive : x.isPositive = true := Decimal.isPositive_iff_value.2 pos
  have lifted : p.widened.lift x = x := Decimal.roundTo_eq_self few
  have sum : p.widened.digits = p.digits + 10 := rfl
  refine ⟨(p.widened.lnParts x).1 * 10 ^ (p.widened.lnParts x).2, ?_, ?_⟩
  · push_cast
    exact transcendentalLaws.ln_near few (by omega) pos size other
  · have answer := round_answers (p := p) (.ofPartsRounded p.widened.digits
      (p.widened.lnParts x).1 (p.widened.lnParts x).2) digit
    rw [Decimal.value_ofPartsRounded p.widened_pos] at answer
    unfold ln
    rw [positive, Bool.not_true, if_neg Bool.false_ne_true, if_neg other]
    dsimp only
    rwa [lifted]

/-- A logarithm is off by a small part of itself. -/
theorem abs_ln_sub_le (digit : 0 < p.digits) (wide : p.digits ≤ 190)
    (few : x.digits ≤ p.widened.digits) (size : |x.adjusted| ≤ 10 ^ 6) (h : p.ln x = .ok y) :
    0 < x.value ∧ |(y.value : ℝ) - log x.value| ≤ 2 * 10 ^ (1 - p.digits : ℤ) * |log x.value| := by
  have pos : 0 < x.value := by
    by_contra refused
    have negative : x.isPositive = false := by
      rw [← Bool.not_eq_true, Decimal.isPositive_iff_value]
      exact refused
    unfold ln at h
    rw [negative, Bool.not_false, if_pos rfl] at h
    cases h
  refine ⟨pos, ?_⟩
  by_cases one : x = 1
  · obtain rfl := one
    cases h
    rw [Decimal.value_one, Decimal.value_zero]
    simp
  · obtain ⟨q, near, answer⟩ := exists_ln_answers digit wide few size pos one
    rw [h] at answer
    have rounded := abs_twice_rounded_sub_le p q
    rw [← answer.value_eq] at rounded
    have guard : (10 : ℝ) ^ (11 - (p.widened.digits + guardPlaces : ℕ) : ℤ) ≤
        1 / 10 * 10 ^ (1 - p.digits : ℤ) := by
      have sum : p.widened.digits = p.digits + 10 := rfl
      exact zpow_le_tenth (by have guard : guardPlaces = 40 := rfl; omega)
    exact abs_sub_le_of_twice_rounded rounded
      (near.trans (mul_le_mul_of_nonneg_right guard (abs_nonneg _))) (by positivity)
      (zpow_le_one_of_nonpos₀ (by norm_num) (by omega))

end Calculator.Precision

namespace Calculator.Decimal

open Precision (working le_abs_log_of_near quarter_le_abs_log)
open Real (log)

variable {x y : Decimal}

/-! ## Working values -/

theorem IsWorking.digits_le_widened (hx : x.IsWorking) : x.digits ≤ working.widened.digits :=
  hx.digits_le.trans (Nat.le_add_right _ 10)

/-- Of a positive number the logarithm is what the primitive answers. -/
theorem ln_eq_ok_iff (pos : 0 < x.value) : x.ln = .ok y ↔ working.ln x = .ok y := by
  have guard : x.isPositive = true := isPositive_eq_true pos
  unfold ln
  rw [guard]
  exact liftM_eq_ok.trans reported_eq_ok

theorem abs_ln_sub_le (hx : x.IsWorking) (pos : 0 < x.value) (h : x.ln = .ok y) :
    |(y.value : ℝ) - log x.value| ≤ 2 * 10 ^ (-135 : ℤ) * |log x.value| := by
  have places : working.digits = 136 := rfl
  have size : |x.adjusted| ≤ 10 ^ 6 := hx.abs_adjusted_le.trans (by decide)
  obtain ⟨-, near⟩ := Precision.abs_ln_sub_le working_digits_pos (by omega) hx.digits_le_widened size
    ((ln_eq_ok_iff pos).1 h)
  rwa [places] at near

/-! ## Answers -/

/-- A logarithm is zero only at one, and next to one not smaller than a part of the last place. -/
theorem IsWorking.le_abs_log (hx : x.IsWorking) (pos : 0 < x.value) (other : x.value ≠ 1) :
    10 ^ (-137 : ℤ) ≤ |log x.value| := by
  have real : (0 : ℝ) < x.value := by exact_mod_cast pos
  by_cases near : 2 / 3 ≤ (x.value : ℝ) ∧ (x.value : ℝ) ≤ 4 / 3
  · have one : (1 : Decimal).IsWorking := isWorking_one
    have bounds : 2 / 3 ≤ x.value ∧ x.value ≤ 4 / 3 := by
      refine ⟨(Rat.cast_le (K := ℝ)).1 ?_, (Rat.cast_le (K := ℝ)).1 ?_⟩ <;> push_cast
      exacts [near.1, near.2]
    have size : |(1 : Decimal).value - x.value| ≤ 10 ^ 136 := by
      rw [value_one]
      exact (abs_le.2 ⟨by linarith [bounds.2], by linarith [bounds.1]⟩ :
        |1 - x.value| ≤ 1).trans (by norm_num)
    have within := one.within_sub hx value_one.ge le_rfl size
    rw [value_one] at within
    have gap := (within.resolve_left (sub_ne_zero.2 other.symm)).1
    have cast := Rat.cast_le (K := ℝ).2 gap
    push_cast at cast
    rw [abs_sub_comm] at cast
    refine le_trans ?_ (le_abs_log_of_near near.1 near.2)
    norm_num at cast ⊢
    linarith
  · refine le_trans (by norm_num) (quarter_le_abs_log real ?_)
    rwa [not_and_or, not_le, not_le] at near

theorem IsWorking.abs_log_le (hx : x.IsWorking) (pos : 0 < x.value) : |log x.value| ≤ 10 ^ 7 := by
  have real : (0 : ℝ) < x.value := by exact_mod_cast pos
  have ten := Real.log_le_sub_one_of_pos (by norm_num : (0 : ℝ) < 10)
  have ten_nonneg := Real.log_nonneg (by norm_num : (1 : ℝ) ≤ 10)
  have front := zpow_adjusted_le pos.ne'
  have back := (abs_value_lt pos.ne').le
  rw [abs_of_pos pos] at front back
  have lower := Real.log_le_log (by positivity) (Rat.cast_le (K := ℝ).2 front)
  have upper := Real.log_le_log real (Rat.cast_le (K := ℝ).2 back)
  push_cast at lower upper
  rw [Real.log_zpow] at lower upper
  have places : |x.adjusted| ≤ 999999 := hx.abs_adjusted_le
  obtain ⟨least, most⟩ := abs_le.1 places
  have least' : (-999999 : ℝ) ≤ x.adjusted := by exact_mod_cast least
  have most' : ((x.adjusted + 1 : ℤ) : ℝ) ≤ 1000000 := by exact_mod_cast (by omega)
  have below := mul_le_mul_of_nonneg_right least' ten_nonneg
  have above := mul_le_mul_of_nonneg_right most' ten_nonneg
  rw [abs_le]
  constructor <;> linarith

/-- Every positive number has a logarithm. -/
theorem exists_ln (hx : x.IsWorking) (pos : 0 < x.value) : ∃ y, x.ln = .ok y := by
  by_cases one : x = 1
  · obtain rfl := one
    exact ⟨.zero, (ln_eq_ok_iff pos).2 rfl⟩
  · have places : working.digits = 136 := rfl
    have size : |x.adjusted| ≤ 10 ^ 6 := hx.abs_adjusted_le.trans (by decide)
    obtain ⟨q, near, answer⟩ := Precision.exists_ln_answers working_digits_pos (by omega)
      hx.digits_le_widened size pos one
    have least := hx.le_abs_log pos fun unit => one (value_injective (unit.trans value_one.symm))
    have most := hx.abs_log_le pos
    have small : (10 : ℝ) ^ (11 - (working.widened.digits + Precision.guardPlaces : ℕ) : ℤ) *
        |log x.value| ≤ 1 / 2 * |log x.value| := by
      refine mul_le_mul_of_nonneg_right ?_ (abs_nonneg _)
      have unit : (11 - (working.widened.digits + Precision.guardPlaces : ℕ) : ℤ) = -175 := rfl
      rw [unit]
      norm_num
    have within : Within 138 q := by
      have close := abs_le.1 ((abs_abs_sub_abs_le (q : ℝ) (log x.value)).trans (near.trans small))
      rw [← Rat.cast_abs] at close
      refine .inr ⟨(Rat.cast_le (K := ℝ)).1 ?_, (Rat.cast_le (K := ℝ)).1 ?_⟩ <;> push_cast at close ⊢
      · norm_num at least ⊢
        linarith
      · norm_num at most ⊢
        linarith
    obtain ⟨y, reported, -⟩ := exists_reported working_digits_pos answer
      ((within.rounded working.widened_pos).mono (by decide))
    exact ⟨y, (ln_eq_ok_iff pos).2 (reported_eq_ok.1 reported)⟩

end Calculator.Decimal
