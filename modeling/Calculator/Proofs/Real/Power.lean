import Calculator.Proofs.Precision.ExactPower
import Calculator.Proofs.Real.Domain
import Calculator.Real.Power

/-!
# Integral powers of working values

A power with a natural exponent is exact whenever a working value can be: whatever the size of the
exponent, the power of a working value that is a working value is the answer.
-/

namespace Calculator.Decimal

open Precision (working)

variable {b n z : Decimal} {k : ℕ}

theorem IsWorking.holds (h : z.IsWorking) : working.Holds z := ⟨h.digits_le, h.inRange⟩

/-- The exponent is not refused: the domain of the power is checked for negative ones only. -/
theorem pow_of_nonneg (exponent : 0 ≤ n.value) (nonzero : b.value ≠ 0 ∨ n.value ≠ 0) :
    b.pow n = reported (working.power b n) := by
  have guard : ¬(b.isZero && n.isZero) = true := by
    rw [Bool.and_eq_true, isZero_iff_value, isZero_iff_value]
    tauto
  unfold pow
  rw [if_neg guard, isNegative_eq_false exponent, Bool.and_false, if_neg Bool.false_ne_true]

theorem pow_zero_exponent (vanishes : n.value = 0) : b.pow n = .ok 1 := by
  by_cases base : b.value = 0
  · unfold pow
    rw [isZero_iff_value.2 base, isZero_iff_value.2 vanishes]
    rfl
  · rw [pow_of_nonneg vanishes.ge (.inl base), Precision.power_of_zero _ _ vanishes]
    rfl

theorem pow_zero_base (base : b.value = 0) (exponent : 0 < n.value) : b.pow n = .ok zero := by
  rw [pow_of_nonneg exponent.le (.inr exponent.ne')]
  unfold Precision.power
  rw [if_neg (mt isZero_iff_value.1 exponent.ne'), if_pos (isZero_iff_value.2 base),
    isNegative_eq_false exponent.le]
  rfl

/-- A power with a natural exponent is exact if its value is a working value. -/
theorem pow_exact (hb : b.IsWorking) (whole : n.value = k) (hz : z.IsWorking)
    (power : z.value = b.value ^ k) : b.pow n = .ok z := by
  have same : z = b.exactPower k := value_injective (by rw [power, value_exactPower])
  rcases k.eq_zero_or_pos with rfl | some
  · rw [pow_zero_exponent (by rw [whole, Nat.cast_zero]), same, exactPower_zero]
  · have exponent : 0 < n.value := by
      rw [whole]
      exact_mod_cast some
    by_cases vanishes : b.value = 0
    · have zero_eq : z = zero := value_injective (by
        rw [power, vanishes, zero_pow some.ne', value_zero])
      rw [pow_zero_base vanishes exponent, zero_eq]
    · have run := Precision.power_exact working_digits_pos (by decide) hb.holds vanishes whole
        some.ne' (by have : working.digits = 136 := rfl; omega) (same ▸ hz.holds)
      rw [pow_of_nonneg exponent.le (.inl vanishes), run, same]
      rfl

/-- The power has 136 digits. -/
theorem minus_twelve_pow : (ofInt (-12)).pow (ofInt 126) = .ok (ofInt (12 ^ 126)) := by
  refine pow_exact (k := 126) (by decide) ?_ (by decide) ?_
  · rw [value_ofInt]
    norm_num
  · rw [value_ofInt, value_ofInt]
    norm_num

end Calculator.Decimal
