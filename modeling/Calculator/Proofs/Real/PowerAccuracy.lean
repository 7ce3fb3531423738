import Calculator.Proofs.Real.ExponentialAccuracy

/-!
# How exact powers are

Repeated squaring has a rounding to ten more digits for each factor, and at most sixty-four bits of
factors. A longer exponent goes through logarithm and exponential with ten more digits as well, and a
power within the bounds has a logarithm of less than ten millions; so the part of the logarithm that
is lost is a small part of one.
-/

namespace Calculator

open Precision (working)
open Real (log)

namespace Decimal

variable {b n l r s t : Decimal} {k : ℕ}

/-! ## Repeated squaring -/

theorem abs_log_integerPower_sub_le (hb : b.IsWorking) (nonzero : b.value ≠ 0)
    (short : Precision.IsShort k) (h : working.integerPower b k = .ok r) :
    |log r.value - k * log b.value| ≤ 2 * 10 ^ (-126 : ℤ) ∧
      SignType.sign r.value = SignType.sign (b.value ^ k) := by
  have digit := working_digits_pos
  have wide := working.widened_pos
  obtain ⟨w, drift, value⟩ := Precision.integerPower_drift digit hb.holds nonzero h
  rw [Int.natAbs_natCast, zpow_natCast] at drift
  have power : b.value ^ k ≠ 0 := pow_ne_zero k nonzero
  have some : w ≠ 0 := mt (drift.eq_zero_iff wide).1 power
  refine ⟨?_, by rw [value, sign_nearest digit, drift.sign_eq wide]⟩
  have factors := drift.abs_log_sub_le wide power
  have last := abs_log_nearest_sub_le digit some
  have count : ((k + 1 : ℕ) : ℝ) ≤ 10 ^ 19 := by
    obtain ⟨-, bound⟩ := short
    exact_mod_cast (by omega : k + 1 ≤ 10 ^ 19)
  have places : working.digits = 136 := rfl
  have wide_places : working.widened.digits = 146 := rfl
  rw [← value, places] at last
  rw [wide_places, Rat.cast_pow, Real.log_pow] at factors
  have product := mul_le_mul_of_nonneg_right count
    (by positivity : (0 : ℝ) ≤ 10 ^ (1 - (146 : ℕ) : ℤ))
  refine (abs_sub_le _ (log w) _).trans ((add_le_add last (factors.trans product)).trans ?_)
  norm_num

/-! ## Logarithm and exponential -/

/-- The logarithm of a power is off by a small part of itself. -/
theorem abs_logarithmOfPower_sub_le (hb : b.IsWorking)
    (h : working.widened.logarithmOfPower b n = .ok t) :
    |(t.value : ℝ) - n.value * log b.value| ≤ 10 ^ (-143 : ℤ) * |n.value * log b.value| := by
  have wide := working.widened_pos
  have wide_places : working.widened.digits = 146 := rfl
  obtain ⟨l, logarithm, product⟩ := bind_eq_ok.1 h
  have few : b.abs.digits ≤ working.widened.widened.digits := by
    have kept := hb.abs.digits_le
    have wider : working.widened.widened.digits = working.digits + 20 := rfl
    omega
  have size : |b.abs.adjusted| ≤ 10 ^ 6 := hb.abs.abs_adjusted_le.trans (by decide)
  obtain ⟨-, near⟩ := Precision.abs_ln_sub_le wide (by omega) few size logarithm
  rw [value_abs, Rat.cast_abs, Real.log_abs, wide_places] at near
  have answer := Precision.multiply_answers (p := working.widened) l n wide
  rw [product] at answer
  have drift : Drift working.widened.digits 3 t.value (l.value * n.value) := by
    have factors := (Drift.nearest wide l.value).mul wide (Drift.nearest wide n.value)
    rw [Precision.value_lift l wide, Precision.value_lift n wide] at answer
    exact (Drift.of_answers wide answer).trans wide factors
  have rounded := Rat.cast_le (K := ℝ).2
    (drift.abs_sub_le wide (by rw [roundoff_widened]; norm_num))
  rw [roundoff_widened, mul_comm l.value n.value] at rounded
  push_cast at rounded
  refine (abs_sub_mul_le rounded near (by positivity)).trans ?_
  exact mul_le_mul_of_nonneg_right (by norm_num) (abs_nonneg _)

/-- The sign of a power that is set at the end. -/
theorem sign_power (nonzero : b.value ≠ 0) (whole : n.value = k) :
    SignType.sign (b.value ^ k) = if b.isNegative && n.isOdd then -1 else 1 := by
  have odd := Precision.isOdd_iff (e := n) (k := k) (by exact_mod_cast whole)
  rw [sign_pow]
  rcases lt_or_gt_of_ne nonzero with negative | positive
  · rw [sign_neg negative, isNegative_iff_value.2 negative, Bool.true_and]
    rcases Nat.even_or_odd k with even | odd_k
    · rw [if_neg (by rw [odd]; have := Nat.even_iff.1 even; omega), even.neg_one_pow]
    · rw [if_pos (by rw [odd]; have := Nat.odd_iff.1 odd_k; omega), odd_k.neg_one_pow]
  · rw [sign_pos positive, one_pow, isNegative_eq_false positive.le, Bool.false_and,
      if_neg Bool.false_ne_true]

/-- Setting the sign of a positive number leaves its logarithm. -/
theorem signed_power (nonzero : b.value ≠ 0) (whole : n.value = k) (pos : 0 < s.value) :
    (if b.isNegative && n.isOdd then -s else s).value ≠ 0 ∧
      log (if b.isNegative && n.isOdd then -s else s).value = log s.value ∧
      SignType.sign (if b.isNegative && n.isOdd then -s else s).value =
        SignType.sign (b.value ^ k) := by
  rw [sign_power nonzero whole]
  split
  · rw [value_neg, Rat.cast_neg, Real.log_neg_eq_log, sign_neg (neg_neg_of_pos pos)]
    exact ⟨neg_ne_zero.2 pos.ne', rfl, rfl⟩
  · rw [sign_pos pos]
    exact ⟨pos.ne', rfl, rfl⟩

theorem abs_log_longPower_sub_le (hb : b.IsWorking) (nonzero : b.value ≠ 0) (whole : n.value = k)
    (h : (do
      let result ← working.widened.exp (← working.widened.logarithmOfPower b n)
      working.round (if b.isNegative && n.isOdd then -result else result)) = .ok r) :
    |log r.value - k * log b.value| ≤ 2 * 10 ^ (-126 : ℤ) ∧
      SignType.sign r.value = SignType.sign (b.value ^ k) := by
  have digit := working_digits_pos
  have wide := working.widened_pos
  have wide_places : working.widened.digits = 146 := rfl
  have places : working.digits = 136 := rfl
  obtain ⟨t, logarithm, rest⟩ := bind_eq_ok.1 h
  obtain ⟨s, exponential, last⟩ := bind_eq_ok.1 rest
  have near := abs_logarithmOfPower_sub_le hb logarithm
  have few : t.digits ≤ working.widened.widened.digits := by
    obtain ⟨l, -, product⟩ := bind_eq_ok.1 logarithm
    have kept := Precision.digits_le_of_round wide product
    have wider : working.widened.widened.digits = working.widened.digits + 10 := rfl
    omega
  obtain ⟨pos, size, exp_near⟩ := Precision.abs_log_exp_sub_le wide (by omega) few exponential
  have answer := Precision.round_answers (p := working)
    (if b.isNegative && n.isOdd then -s else s) digit
  rw [last] at answer
  have value := answer.value_eq
  obtain ⟨some, log_eq, sign⟩ := signed_power nonzero whole pos
  have rounded := abs_log_nearest_sub_le digit some
  rw [← value, log_eq, places] at rounded
  rw [wide_places] at exp_near
  rw [whole, Rat.cast_natCast] at near
  have exact_near := abs_sub_le_of_bounded near (by positivity) (by norm_num)
    (by exact_mod_cast size : |(t.value : ℝ)| ≤ 10 ^ 7)
  refine ⟨?_, ?_⟩
  · have first := abs_sub_le (log r.value) (log s.value) (k * log b.value)
    have second := abs_sub_le (log s.value) (t.value : ℝ) (k * log b.value)
    norm_num at rounded exp_near exact_near ⊢
    linarith only [rounded, exp_near, exact_near, first, second]
  · rw [value, sign_nearest digit, sign]

/-- A power of a working value with a natural exponent has the sign of the exact power, and the
logarithms of the two are closer than any result with 120 digits could tell. -/
theorem abs_log_pow_sub_le (hb : b.IsWorking) (nonzero : b.value ≠ 0) (whole : n.value = k)
    (h : b.pow n = .ok r) :
    |log r.value - k * log b.value| ≤ 2 * 10 ^ (-126 : ℤ) ∧
      SignType.sign r.value = SignType.sign (b.value ^ k) := by
  by_cases none : k = 0
  · rw [none, Nat.cast_zero] at whole
    rw [pow_zero_exponent whole] at h
    cases h
    rw [none, value_one, pow_zero, Rat.cast_one, Real.log_one, Nat.cast_zero, zero_mul, sub_zero,
      abs_zero]
    exact ⟨by positivity, rfl⟩
  · have natural : 0 ≤ n.value := by
      rw [whole]
      exact k.cast_nonneg
    rw [pow_of_nonneg natural (.inl nonzero)] at h
    have power := reported_eq_ok.1 (liftM_eq_ok.1 h)
    have integral : n.value = (k : ℤ) := by exact_mod_cast whole
    have some : (k : ℤ) ≠ 0 := by exact_mod_cast none
    have fits : n.adjusted < working.digits ∨ 18 < n.adjusted := by
      have places : working.digits = 136 := rfl
      omega
    by_cases short : Precision.IsShort k
    · rw [Precision.power_of_isShort nonzero integral some short fits] at power
      exact abs_log_integerPower_sub_le hb nonzero short power
    · rw [Precision.power_of_not_isShort nonzero integral some short fits] at power
      exact abs_log_longPower_sub_le hb nonzero whole power

end Decimal

end Calculator
