import Mathlib.Analysis.Complex.ExponentialBounds
import Calculator.Proofs.Decimal.SeriesLimits
import Calculator.Proofs.Precision.Transcendental
import Calculator.Proofs.Real.Extent
import Calculator.Proofs.Real.LogDrift

/-!
# How exact the unrounded logarithms and exponentials are

The guard places of the series cover the multiples of the logarithms of two and ten that reduce the
argument. Near one the scale of a logarithm grows, so it is exact in proportion to itself and not only
to one. An exponential is off by a small factor, so its own logarithm is close to the argument.
-/

namespace Calculator.Precision

open Series
open Real (log)

variable {p : Precision} {x y : Decimal} {scale : ℕ} {n m : ℤ}

theorem cast_tenPow (scale : ℕ) : (tenPow scale : ℝ) = 10 ^ scale := by
  rw [tenPow_eq, Nat.cast_pow]
  rfl

/-- A smaller exponent makes a power at most a tenth. -/
theorem zpow_le_tenth {i j : ℤ} (less : i < j) : (10 : ℝ) ^ i ≤ 1 / 10 * 10 ^ j := by
  have power : (10 : ℝ) ^ i ≤ 10 ^ (j - 1) := zpow_le_zpow_right₀ (by norm_num) (by omega)
  rw [zpow_sub_one₀ (by norm_num)] at power
  linarith

theorem zpow_eleven_sub (i : ℤ) : (10 : ℝ) ^ (11 - i) = 10 ^ 11 * 10 ^ (-i) := by
  rw [sub_eq_add_neg, zpow_add₀ (by norm_num)]
  rfl

/-! ## The series of a logarithm -/

/-- Between a half and two, the logarithm of a ratio is off by the cuts of its series. -/
theorem lnRatio_near (some : 0 < scale) (hn : 0 < n) (hm : 0 < m) (below : n ≤ 2 * m)
    (above : m ≤ 2 * n) :
    |lnRatio scale n m - (tenPow scale : ℝ) * log (n / m)| ≤ 2 * cutError scale := by
  have top : (0 : ℝ) < n := by exact_mod_cast hn
  have bottom : (0 : ℝ) < m := by exact_mod_cast hm
  have most : (n : ℝ) ≤ 2 * m := by exact_mod_cast below
  have least : (m : ℝ) ≤ 2 * n := by exact_mod_cast above
  have third : |((n : ℝ) - m) / (n + m)| ≤ 1 / 3 := by
    rw [abs_div, abs_of_pos (by linarith : (0 : ℝ) < n + m), div_le_iff₀ (by linarith)]
    exact abs_le.2 ⟨by linarith, by linarith⟩
  have cut := abs_tdiv_sub_le ((n - m) * tenPow scale) (n + m)
  have near : |(((n - m) * tenPow scale).tdiv (n + m) : ℝ) -
      (tenPow scale : ℝ) * (((n : ℝ) - m) / (n + m))| ≤ 1 := by
    push_cast at cut ⊢
    rwa [mul_comm (tenPow scale : ℝ), ← mul_div_right_comm]
  have series := abs_le.1 (artanh_near some third near)
  rw [lnRatio, ← artanh_eq_log top bottom]
  push_cast
  exact abs_le.2 ⟨by linarith, by linarith⟩

/-- The logarithm of a number of `[1, 10)`. -/
theorem lnDecade_near (some : 0 < scale) (low : tenPow scale ≤ n) (high : n ≤ 10 * tenPow scale) :
    |lnDecade scale n - (tenPow scale : ℝ) * log (n / tenPow scale)| ≤
      8 * cutError scale := by
  have unit := tenPow_pos scale
  have octave := octave_pos scale n
  obtain ⟨front, back⟩ := halvings_spec scale n
  have few : halvings (tenPow scale) n ≤ 3 := by omega
  have ratio := abs_le.1 (lnRatio_near some (by omega : 0 < n) octave (by omega) (by omega))
  have two := abs_le.1 (lnTwo_near some)
  have log_eq : log (n / tenPow scale) = halvings (tenPow scale) n * log 2 +
      log (n / Calculator.Precision.octave scale n) := by
    have top : (0 : ℝ) < n := by exact_mod_cast unit.trans_le low
    have bottom : (0 : ℝ) < tenPow scale := by exact_mod_cast unit
    have factor : (Calculator.Precision.octave scale n : ℝ) =
        2 ^ halvings (tenPow scale) n * tenPow scale := by
      rw [Calculator.Precision.octave, Nat.pow_eq]
      push_cast
      rfl
    rw [factor, ← Real.log_pow, ← Real.log_mul (by positivity) (by positivity)]
    congr 1
    field_simp
  have count : ((halvings (tenPow scale) n : ℕ) : ℝ) ≤ 3 := by exact_mod_cast few
  have nonneg := (halvings (tenPow scale) n).cast_nonneg (α := ℝ)
  have error := cutError_nonneg scale
  have most := mul_le_mul_of_nonneg_right count error
  have lower := mul_le_mul_of_nonneg_left two.1 nonneg
  have upper := mul_le_mul_of_nonneg_left two.2 nonneg
  rw [log_eq, lnDecade]
  push_cast at lower upper ratio ⊢
  exact abs_le.2 ⟨by linarith, by linarith⟩

/-- Near one the logarithm is about as large as the distance from one. -/
theorem le_abs_log_of_near {a : ℝ} (low : 2 / 3 ≤ a) (high : a ≤ 4 / 3) :
    3 / 4 * |a - 1| ≤ |log a| := by
  have pos : 0 < a := by linarith
  have above := Real.log_le_sub_one_of_pos pos
  have below := Real.one_sub_inv_le_log_of_pos pos
  rcases le_total 1 a with large | small
  · have quotient : 3 / 4 * (a - 1) ≤ 1 - a⁻¹ := by
      have split : 1 - a⁻¹ = (a - 1) / a := by field_simp
      rw [split, le_div_iff₀ pos]
      nlinarith
    rw [abs_of_nonneg (by linarith : 0 ≤ a - 1)]
    exact (quotient.trans below).trans (le_abs_self _)
  · rw [abs_of_nonpos (by linarith : a - 1 ≤ 0)]
    exact le_trans (by linarith) (neg_le_abs _)

/-- Elsewhere it is not small. -/
theorem quarter_le_abs_log {a : ℝ} (pos : 0 < a) (far : a < 2 / 3 ∨ 4 / 3 < a) :
    1 / 4 ≤ |log a| := by
  rcases far with small | large
  · have above := Real.log_le_sub_one_of_pos pos
    exact le_trans (by linarith) (neg_le_abs _)
  · have below := Real.one_sub_inv_le_log_of_pos pos
    have inverse : a⁻¹ ≤ 3 / 4 := by
      rw [inv_le_iff_one_le_mul₀ pos]
      linarith
    exact le_trans (by linarith) (le_abs_self _)

/-- The cuts of a series grow with the scale, by a few units for a place. -/
theorem cutError_le {s : ℕ} (few : scale ≤ s) : cutError scale ≤ 8 * s + 49 := by
  have count : (scale : ℝ) ≤ s := by exact_mod_cast few
  unfold cutError
  linarith

/-- A scaled number is as exact as its units are few. -/
theorem abs_scaled_sub_le {c L E : ℝ} (near : |c - (tenPow scale : ℝ) * L| ≤ E) :
    |c * 10 ^ (-scale : ℤ) - L| ≤ E * 10 ^ (-scale : ℤ) := by
  have unit : (10 : ℝ) ^ scale * 10 ^ (-scale : ℤ) = 1 := by
    rw [zpow_neg, zpow_natCast]
    exact mul_inv_cancel₀ (by positivity)
  have split : c * 10 ^ (-scale : ℤ) - L = (c - (tenPow scale : ℝ) * L) * 10 ^ (-scale : ℤ) := by
    rw [cast_tenPow, sub_mul, mul_right_comm, unit, one_mul]
  rw [split, abs_mul, abs_of_pos (by positivity : (0 : ℝ) < 10 ^ (-scale : ℤ))]
  exact mul_le_mul_of_nonneg_right near (by positivity)

/-- Near one the number and one are written with one exponent. -/
theorem lnRatio_value_near (some : 0 < scale) (whole : 0 ≤ x.exponent + scale)
    (low : 2 ≤ 3 * x.value) (high : 3 * x.value ≤ 4) :
    |lnRatio scale (x.coefficient * tenPow (x.exponent + scale).toNat) (tenPow scale) -
      (tenPow scale : ℝ) * log x.value| ≤ 2 * cutError scale := by
  have unit := tenPow_pos scale
  have positive : (0 : ℚ) < (tenPow scale : ℤ) := by exact_mod_cast unit
  have written := coefficient_mul_tenPow whole
  generalize x.coefficient * tenPow (x.exponent + scale).toNat = n at written ⊢
  have lower : (tenPow scale : ℤ) ≤ 2 * n := by
    have bound : ((tenPow scale : ℤ) : ℚ) ≤ 2 * n := by
      rw [written]
      nlinarith
    exact_mod_cast bound
  have upper : n ≤ 2 * (tenPow scale : ℤ) := by
    have bound : (n : ℚ) ≤ 2 * (tenPow scale : ℤ) := by
      rw [written]
      nlinarith
    exact_mod_cast bound
  have ratio : (n : ℝ) / (tenPow scale : ℤ) = x.value := by
    have quotient : (n : ℚ) / (tenPow scale : ℤ) = x.value := by
      rw [written, mul_div_cancel_right₀ _ positive.ne']
    exact_mod_cast congrArg (Rat.cast : ℚ → ℝ) quotient
  rw [← ratio]
  exact lnRatio_near some (by omega) unit upper lower

/-- The distance from one has at most as many zeros behind the point as the number has digits. -/
theorem exists_zeros (few : x.digits ≤ p.digits) (near : 2 ≤ 3 * x) (low : 2 ≤ 3 * x.value)
    (high : 3 * x.value ≤ 4) (other : x.value ≠ 1) :
    ∃ z ≤ p.digits, -(x - 1).adjusted = z ∧ 10 ^ (-z : ℤ) ≤ |x.value - 1| := by
  have distance : (x - 1).value = x.value - 1 := by rw [Decimal.value_sub, Decimal.value_one]
  have nonzero : (x - 1).value ≠ 0 := distance ▸ sub_ne_zero.2 other
  have smaller : |(x - 1).value| ≤ 1 / 3 := by
    rw [distance]
    exact abs_le.2 ⟨by linarith, by linarith⟩
  have front := Decimal.zpow_adjusted_le nonzero
  have grid : OnGrid (-p.digits) (x - 1).value := by
    have whole := neg_digits_le_exponent_of_near few near
    have one : OnGrid 0 (-1) := ⟨-1, by norm_num⟩
    rw [distance, sub_eq_add_neg]
    exact (OnGrid.mono ⟨x.coefficient, rfl⟩ whole).add (one.mono (by omega))
  have last := Decimal.le_adjusted_of_onGrid nonzero
    (smaller.trans ((by norm_num : (1 / 3 : ℚ) ≤ 1).trans (one_le_pow₀ (by norm_num)))) grid
  have behind : (x - 1).adjusted < 0 := by
    by_contra level
    have one : (1 : ℚ) ≤ 10 ^ (x - 1).adjusted := one_le_zpow₀ (by norm_num) (by omega)
    linarith
  refine ⟨(-(x - 1).adjusted).toNat, by omega, by omega, ?_⟩
  rwa [← distance, Int.toNat_of_nonneg (by omega), neg_neg]

/-- Near one, the places that the scale gains make up for the small logarithm. -/
theorem lnParts_near_one (few : x.digits ≤ p.digits) (wide : p.digits ≤ 200)
    (near : 2 ≤ 3 * x ∧ 3 * x ≤ 4) (other : x.value ≠ 1) :
    |((p.lnParts x).1 : ℝ) * 10 ^ (p.lnParts x).2 - log x.value| ≤
      10 ^ (11 - (p.digits + guardPlaces : ℕ) : ℤ) * |log x.value| := by
  have low : (2 : ℚ) ≤ 3 * x.value := by simpa using Decimal.le_iff_value.1 near.1
  have high : 3 * x.value ≤ (4 : ℚ) := by simpa using Decimal.le_iff_value.1 near.2
  have whole := neg_digits_le_exponent_of_near few near.1
  obtain ⟨z, zeros, place, distance⟩ := exists_zeros few near.1 low high other
  have guard : guardPlaces = 40 := rfl
  have parts : p.lnParts x = (lnRatio (p.digits + guardPlaces + z)
      (x.coefficient * tenPow (x.exponent + (p.digits + guardPlaces + z : ℕ)).toNat)
      (tenPow (p.digits + guardPlaces + z)), -((p.digits + guardPlaces + z : ℕ) : ℤ)) := by
    unfold lnParts
    dsimp only
    rw [if_pos near, place, Int.toNat_natCast]
  have series := abs_scaled_sub_le
    (@lnRatio_value_near x (p.digits + guardPlaces + z) (by omega) (by omega) low high)
  have error := cutError_le (by omega : p.digits + guardPlaces + z ≤ 440)
  have size := le_abs_log_of_near (a := x.value)
    (by have := Rat.cast_le (K := ℝ).2 low; push_cast at this; linarith)
    (by have := Rat.cast_le (K := ℝ).2 high; push_cast at this; linarith)
  have far : (10 : ℝ) ^ (-z : ℤ) ≤ |(x.value : ℝ) - 1| := by
    have := Rat.cast_le (K := ℝ).2 distance
    push_cast at this
    exact this
  have split : (10 : ℝ) ^ (-(p.digits + guardPlaces + z : ℕ) : ℤ) =
      10 ^ (-(p.digits + guardPlaces : ℕ) : ℤ) * 10 ^ (-z : ℤ) := by
    rw [← zpow_add₀ (by norm_num)]
    congr 1
    push_cast
    ring
  have units : 2 * cutError (p.digits + guardPlaces + z) * (10 : ℝ) ^ (-z : ℤ) ≤
      10 ^ 11 * |log x.value| := by
    norm_num at error
    have least := mul_le_mul_of_nonneg_right error (by positivity : (0 : ℝ) ≤ 10 ^ (-z : ℤ))
    linarith [abs_nonneg (log x.value)]
  rw [parts]
  calc _ ≤ 2 * cutError (p.digits + guardPlaces + z) *
          10 ^ (-(p.digits + guardPlaces + z : ℕ) : ℤ) := series
    _ = 10 ^ (-(p.digits + guardPlaces : ℕ) : ℤ) *
          (2 * cutError (p.digits + guardPlaces + z) * 10 ^ (-z : ℤ)) := by
        rw [split]
        ring
    _ ≤ 10 ^ (-(p.digits + guardPlaces : ℕ) : ℤ) * (10 ^ 11 * |log x.value|) :=
        mul_le_mul_of_nonneg_left units (by positivity)
    _ = 10 ^ (11 - (p.digits + guardPlaces : ℕ) : ℤ) * |log x.value| := by
        rw [zpow_eleven_sub]
        ring

/-- The digits of a number with a point behind the first one are a number of `[1, 10)`. -/
theorem leading_eq (few : x.digits ≤ scale + 1) :
    ((x.coefficient * tenPow (scale + 1 - x.digits) : ℤ) : ℝ) / tenPow scale =
      x.value * 10 ^ (-x.adjusted) := by
  have power : (10 : ℝ) ^ (scale + 1 - x.digits) =
      10 ^ x.exponent * 10 ^ (-x.adjusted) * 10 ^ scale := by
    rw [← zpow_natCast, ← zpow_natCast, ← zpow_add₀ (by norm_num), ← zpow_add₀ (by norm_num),
      Decimal.adjusted]
    congr 1
    omega
  rw [Decimal.value]
  push_cast
  rw [cast_tenPow, cast_tenPow, div_eq_iff (by positivity), power]
  ring

/-- Away from one the logarithm is not small, so the cuts of the tens are a small part of it. -/
theorem lnParts_far_near (few : x.digits ≤ p.digits) (wide : p.digits ≤ 200) (pos : 0 < x.value)
    (size : |x.adjusted| ≤ 10 ^ 6) (far : ¬(2 ≤ 3 * x ∧ 3 * x ≤ 4)) :
    |((p.lnParts x).1 : ℝ) * 10 ^ (p.lnParts x).2 - log x.value| ≤
      10 ^ (11 - (p.digits + guardPlaces : ℕ) : ℤ) * |log x.value| := by
  have places : 0 < p.digits + guardPlaces := Nat.add_pos_right _ (by decide)
  have guard : guardPlaces = 40 := rfl
  have positive : (0 : ℝ) < x.value := by exact_mod_cast pos
  have coefficient : 0 < x.coefficient := decide_eq_true_iff.1 (Decimal.isPositive_iff_value.2 pos)
  obtain ⟨low, high⟩ := leading_bounds (p.digits + guardPlaces) (x := x) (by omega) coefficient
  have decade := lnDecade_near places low high
  have ten := lnTen_near places
  have error := cutError_le (by omega : p.digits + guardPlaces ≤ 240)
  have exponent : (p.lnParts x).2 = -((p.digits + guardPlaces : ℕ) : ℤ) := by
    unfold lnParts
    dsimp only
    rw [if_neg far]
  have log_eq : log x.value = x.adjusted * log 10 + log ((x.coefficient *
      tenPow (p.digits + guardPlaces + 1 - x.digits) : ℤ) / tenPow (p.digits + guardPlaces)) := by
    rw [leading_eq (by omega), Real.log_mul positive.ne' (by positivity), Real.log_zpow]
    push_cast
    ring
  have apart : 1 / 4 ≤ |log x.value| := by
    refine quarter_le_abs_log positive ?_
    rw [Decimal.le_iff_value, Decimal.le_iff_value, not_and_or, not_le, not_le] at far
    simp only [Decimal.value_mul, Decimal.value_ofNat] at far
    refine far.imp (fun small => ?_) fun large => ?_
    · have cast := Rat.cast_lt (K := ℝ).2 small
      push_cast at cast
      linarith
    · have cast := Rat.cast_lt (K := ℝ).2 large
      push_cast at cast
      linarith
  have count : |(x.adjusted : ℝ)| ≤ 10 ^ 6 := by exact_mod_cast size
  have units : |((p.lnParts x).1 : ℝ) - (tenPow (p.digits + guardPlaces) : ℝ) * log x.value| ≤
      10 ^ 11 * |log x.value| := by
    have split : ((p.lnParts x).1 : ℝ) - (tenPow (p.digits + guardPlaces) : ℝ) * log x.value =
        x.adjusted * (lnTen (p.digits + guardPlaces) -
          (tenPow (p.digits + guardPlaces) : ℝ) * log 10) +
        (lnDecade (p.digits + guardPlaces)
            (x.coefficient * tenPow (p.digits + guardPlaces + 1 - x.digits)) -
          (tenPow (p.digits + guardPlaces) : ℝ) * log ((x.coefficient *
            tenPow (p.digits + guardPlaces + 1 - x.digits) : ℤ) /
              tenPow (p.digits + guardPlaces))) := by
      rw [lnParts_far p x far, log_eq]
      push_cast
      ring
    have tens := mul_le_mul count ten (abs_nonneg _) (by norm_num)
    rw [← abs_mul] at tens
    rw [split]
    refine (abs_add_le _ _).trans ((add_le_add tens decade).trans ?_)
    generalize cutError (p.digits + guardPlaces) = E at error
    calc 10 ^ 6 * (8 * E) + 8 * E ≤ 10 ^ 11 * (1 / 4) := by
          norm_num at error ⊢
          linarith
      _ ≤ 10 ^ 11 * |log x.value| := mul_le_mul_of_nonneg_left apart (by norm_num)
  rw [exponent, zpow_eleven_sub, mul_right_comm]
  exact abs_scaled_sub_le units

/-! ## The series of an exponential -/

/-- The argument is cut off by one unit at most. -/
theorem scaled_near (scale : ℕ) (x : Decimal) :
    |(scaled scale x : ℝ) - (tenPow scale : ℝ) * x.value| ≤ 1 := by
  unfold scaled
  split
  · rename_i whole
    have written := congrArg (Rat.cast : ℚ → ℝ) (coefficient_mul_tenPow whole)
    rw [Rat.cast_mul, Rat.cast_intCast, Rat.cast_intCast, Int.cast_natCast] at written
    rw [written, mul_comm, sub_self, abs_zero]
    exact zero_le_one
  · rename_i fraction
    split
    · rename_i small
      rw [Int.cast_zero, zero_sub, abs_neg, abs_mul, cast_tenPow, abs_of_pos (by positivity)]
      have size : |x.value| ≤ 10 ^ (-scale : ℤ) := by
        by_cases vanishes : x.value = 0
        · rw [vanishes, abs_zero]
          positivity
        · exact (Decimal.abs_value_lt vanishes).le.trans
            (zpow_le_zpow_right₀ (by norm_num) (by omega))
      have cast : |(x.value : ℝ)| ≤ 10 ^ (-scale : ℤ) := by
        have real := Rat.cast_le (K := ℝ).2 size
        push_cast at real
        exact real
      calc (10 : ℝ) ^ scale * |(x.value : ℝ)| ≤ 10 ^ scale * 10 ^ (-scale : ℤ) :=
            mul_le_mul_of_nonneg_left cast (by positivity)
        _ = 1 := by
            rw [zpow_neg, zpow_natCast]
            exact mul_inv_cancel₀ (by positivity)
    · have cut := abs_tdiv_sub_le x.coefficient (tenPow (-(x.exponent + scale)).toNat)
      have written : (x.coefficient : ℝ) / (tenPow (-(x.exponent + scale)).toNat : ℤ) =
          (tenPow scale : ℝ) * x.value := by
        have power : (10 : ℝ) ^ scale * 10 ^ x.exponent * 10 ^ (-(x.exponent + scale)).toNat = 1 := by
          rw [← zpow_natCast, ← zpow_natCast, ← zpow_add₀ (by norm_num), ← zpow_add₀ (by norm_num),
            Int.toNat_of_nonneg (by omega)]
          have none : (scale : ℤ) + x.exponent + -(x.exponent + scale) = 0 := by ring
          rw [none, zpow_zero]
        rw [Int.cast_natCast, cast_tenPow, cast_tenPow, Decimal.value, div_eq_iff (by positivity)]
        push_cast
        linear_combination -(x.coefficient : ℝ) * power
      rwa [← written]

theorem eighth_le_exp {ξ : ℝ} (low : -(5 / 4) ≤ ξ) : 1 / 8 ≤ Real.exp ξ := by
  have half := Real.add_one_le_exp (ξ / 2)
  have square : Real.exp ξ = Real.exp (ξ / 2) ^ 2 := by
    rw [← Real.exp_nat_mul]
    congr 1
    push_cast
    ring
  rw [square]
  nlinarith

/-- The power of ten that is split off an argument below ten millions. -/
theorem abs_quotient_le {ten k T : ℝ} {n : ℝ} (unit : 100 ≤ T) (least : 2 * T - 4 ≤ ten)
    (rest : |2 * (n - k * ten)| ≤ ten) (bounded : |n| ≤ 10 ^ 7 * T + 1) : |k| ≤ 6 * 10 ^ 6 := by
  have pos : 0 < ten := by linarith
  have product : |k| * ten ≤ |n| + ten / 2 := by
    have triangle := abs_sub_abs_le_abs_sub (k * ten) n
    rw [abs_mul, abs_of_pos pos] at triangle
    rw [abs_mul, abs_two, abs_sub_comm] at rest
    linarith
  by_contra large
  have more := mul_lt_mul_of_pos_right (not_le.1 large) pos
  norm_num at bounded more
  linarith

/-- The series of the exponential, seen by the logarithm. -/
theorem log_exp_near (some : 0 < scale) {r : ℤ} {ξ : ℝ} (argument : (tenPow scale : ℝ) * ξ = r)
    (small : |ξ| ≤ 5 / 4) (fine : 16 * cutError scale ≤ tenPow scale) :
    0 < Series.exp scale r ∧
      |log (Series.exp scale r / tenPow scale) - ξ| ≤ 16 * cutError scale / tenPow scale := by
  have unit := ten_le_unit some
  have pos : (0 : ℝ) < tenPow scale := by linarith
  have series := exp_near some argument small
  have size := eighth_le_exp (abs_le.1 small).1
  have value := Real.exp_pos ξ
  have near : |(Series.exp scale r : ℝ) / tenPow scale / Real.exp ξ - 1| ≤
      8 * cutError scale / tenPow scale := by
    have split : (Series.exp scale r : ℝ) / tenPow scale / Real.exp ξ - 1 =
        (Series.exp scale r - tenPow scale * Real.exp ξ) / (tenPow scale * Real.exp ξ) := by
      field_simp
    rw [split, abs_div, abs_of_pos (mul_pos pos value), div_le_div_iff₀ (mul_pos pos value) pos]
    have product := mul_le_mul_of_nonneg_left size (cutError_nonneg scale)
    have scaled := mul_le_mul_of_nonneg_right
      (series.trans (by linarith : cutError scale ≤ 8 * (cutError scale * Real.exp ξ))) pos.le
    linarith
  have half : 8 * cutError scale / tenPow scale ≤ 1 / 2 := by
    rw [div_le_iff₀ pos]
    linarith
  have quotient : (0 : ℝ) < Series.exp scale r / tenPow scale := by
    have low := (abs_le.1 (near.trans half)).1
    have ratio : (0 : ℝ) < Series.exp scale r / tenPow scale / Real.exp ξ := by linarith
    exact (div_pos_iff_of_pos_right value).1 ratio
  refine ⟨?_, ?_⟩
  · have cast : (0 : ℝ) < Series.exp scale r := (div_pos_iff_of_pos_right pos).1 quotient
    exact_mod_cast cast
  · have distance := abs_log_le_of_near_one near half
    rw [Real.log_div quotient.ne' value.ne', Real.log_exp] at distance
    refine distance.trans_eq ?_
    ring

/-! ## The reduction of the argument -/

/-- The logarithm of ten is not small, whatever the scale. -/
theorem le_lnTen (scale : ℕ) : 2 * (tenPow scale : ℝ) - 4 ≤ lnTen scale := by
  have two := le_lnTwo scale
  have ninth := artanh_nonneg scale (z := tenPow scale / 9) (by omega)
  have least : 2 * tenPow scale - 4 ≤ lnTen scale := by
    rw [lnTen_eq]
    omega
  exact_mod_cast least

/-- An argument below ten millions has as many units. -/
theorem abs_scaled_le (size : |x.value| ≤ 10 ^ 7) :
    |(scaled scale x : ℝ)| ≤ 10 ^ 7 * tenPow scale + 1 := by
  have argument := scaled_near scale x
  have real : |(x.value : ℝ)| ≤ 10 ^ 7 := by exact_mod_cast size
  have product := mul_le_mul_of_nonneg_left real (tenPow scale : ℕ).cast_nonneg
  have triangle := abs_add_le (scaled scale x - (tenPow scale : ℝ) * x.value)
    ((tenPow scale : ℝ) * x.value)
  rw [sub_add_cancel, abs_mul (tenPow scale : ℝ), Nat.abs_cast] at triangle
  linarith

/-- The logarithm of an exponential that is put together again, against its argument: what the series
is off by, what the argument was cut off by, and the multiples of the logarithm of ten. -/
theorem log_reduced_eq {a n k ten q T : ℝ} (pos : 0 < T) (result : 0 < a) {i : ℤ} (whole : k = i) :
    log (a / T * 10 ^ i) - q =
      (log (a / T) - (n - k * ten) / T) + ((n - T * q) - k * (ten - T * log 10)) / T := by
  rw [Real.log_mul (by positivity) (by positivity), Real.log_zpow, ← whole]
  field_simp
  ring

/-- The exponential is off by as many units as the multiples of the logarithm of ten that are taken
off the argument. -/
theorem expParts_near (wide : p.digits ≤ 200) (size : |x.value| ≤ 10 ^ 7) :
    0 < (p.expParts x).1 ∧
      |log ((p.expParts x).1 * 10 ^ (p.expParts x).2) - x.value| ≤
        10 ^ (11 - (p.digits + guardPlaces : ℕ) : ℤ) := by
  have guard : guardPlaces = 40 := rfl
  have places : 0 < p.digits + guardPlaces := by omega
  have long : 10 ^ 5 ≤ tenPow (p.digits + guardPlaces) := by
    rw [tenPow_eq]
    exact Nat.pow_le_pow_right (by decide) (by omega)
  have error : cutError (p.digits + guardPlaces) ≤ 1969 :=
    (cutError_le (by omega : p.digits + guardPlaces ≤ 240)).trans_eq (by norm_num)
  have unit : (10 : ℝ) ^ (11 - (p.digits + guardPlaces : ℕ) : ℤ) =
      10 ^ 11 / tenPow (p.digits + guardPlaces) := by
    rw [cast_tenPow, zpow_sub₀ (by norm_num), zpow_natCast]
    rfl
  rw [unit]
  unfold expParts
  dsimp only
  generalize p.digits + guardPlaces = s at *
  have fine : (10 : ℝ) ^ 5 ≤ tenPow s := by exact_mod_cast long
  have pos : (0 : ℝ) < tenPow s := lt_of_lt_of_le (by norm_num) fine
  have argument := scaled_near s x
  have ten := lnTen_near places
  have upper : 2 * (lnTen s : ℝ) ≤ 5 * tenPow s := by exact_mod_cast lnTen_le s
  have lower := le_lnTen s
  have bounded := @abs_scaled_le x s size
  obtain ⟨low, high, -, -⟩ := reduction_bounds (lnTen_pos places) (scaled s x)
  generalize scaled s x = n at *
  generalize (2 * n + lnTen s).fdiv (2 * lnTen s) = k at *
  have rest : |2 * ((n : ℝ) - k * lnTen s)| ≤ lnTen s := by exact_mod_cast abs_le.2 ⟨low, high⟩
  have count := abs_quotient_le (le_trans (by norm_num) fine) lower rest bounded
  have small : |((n : ℝ) - k * lnTen s) / tenPow s| ≤ 5 / 4 := by
    rw [abs_mul, abs_two] at rest
    rw [abs_div, Nat.abs_cast, div_le_iff₀ pos]
    linarith
  have reduced : (tenPow s : ℝ) * (((n : ℝ) - k * lnTen s) / tenPow s) = (n - k * lnTen s : ℤ) := by
    push_cast
    field_simp
  obtain ⟨positive, series⟩ := log_exp_near places reduced small (by linarith)
  refine ⟨positive, ?_⟩
  have result : (0 : ℝ) < Series.exp s (n - k * lnTen s) := by exact_mod_cast positive
  have scale : (Series.exp s (n - k * lnTen s) : ℝ) * 10 ^ (k - s) =
      Series.exp s (n - k * lnTen s) / tenPow s * 10 ^ k := by
    rw [cast_tenPow, zpow_sub₀ (by norm_num), zpow_natCast]
    ring
  have multiples : |(k : ℝ) * (lnTen s - tenPow s * log 10)| ≤ 6 * 10 ^ 6 * (8 * cutError s) := by
    rw [abs_mul]
    exact mul_le_mul count ten (abs_nonneg _) (by norm_num)
  rw [scale, log_reduced_eq pos result rfl]
  refine (abs_add_le _ _).trans ?_
  rw [abs_div _ (tenPow s : ℝ), Nat.abs_cast]
  calc _ ≤ 16 * cutError s / tenPow s + (1 + 6 * 10 ^ 6 * (8 * cutError s)) / tenPow s :=
        add_le_add series (div_le_div_of_nonneg_right
          ((abs_sub _ _).trans (add_le_add argument multiples)) pos.le)
    _ = (16 * cutError s + 1 + 6 * 10 ^ 6 * (8 * cutError s)) / tenPow s := by ring
    _ ≤ 10 ^ 11 / tenPow s := by
        refine div_le_div_of_nonneg_right ?_ pos.le
        linarith

end Calculator.Precision
