import Calculator.Proofs.Complex.Working
import Calculator.Proofs.Real.SquareRoot

/-!
# The polar form

The root of rounded squares can fall below the real part that it is the modulus of. It falls by one
unit of the last place at most, and only where a number has so many units that the quotient is rounded
to one. So the cosine of the angle stays in the domain of the inverse cosine, and off the real axis
the angle and the logarithm fail for the exponent bounds only.
-/

namespace Calculator

open Precision (working)

namespace Complex

open Decimal

variable {z : Complex} {m q square : Decimal}

/-! ## Squares of the modulus -/

/-- The sum of the squares is rounded twice: each square, and then the sum. -/
theorem value_sqr (hz : z.IsWorking) (sum : z.sqr = .ok square) :
    square.value = nearest working.digits
      (nearest working.digits (|z.re.value| ^ 2) + nearest working.digits (|z.im.value| ^ 2)) := by
  obtain ⟨a, first, sum⟩ := bind_eq_ok.1 sum
  obtain ⟨b, second, sum⟩ := bind_eq_ok.1 sum
  have answer := add_answers (isWorking_of_mul first) (isWorking_of_mul second)
  rw [reported_eq_ok.1 sum] at answer
  rw [answer.value_eq, value_mul_self hz.1 first, value_mul_self hz.2 second]

/-- The sum is not rounded to less than the first square is. -/
theorem le_value_sqr (hz : z.IsWorking) (nonzero : z.re.value ≠ 0) (sum : z.sqr = .ok square) :
    nearest working.digits (|z.re.value| ^ 2) ≤ square.value := by
  obtain ⟨a, first, -⟩ := bind_eq_ok.1 sum
  have ha := value_mul_self hz.1 first
  have kept := nearest_value (isWorking_of_mul first).digits_le working_digits_pos
  have pos := value_mul_self_pos hz.1 nonzero first
  have second : 0 ≤ nearest working.digits (|z.im.value| ^ 2) := nearest_nonneg (by positivity)
  rw [value_sqr hz sum, ← ha]
  nth_rewrite 1 [← kept]
  exact nearest_mono_of_pos working_digits_pos pos (le_add_of_nonneg_right second)

/-- The squares of a number off the real line do not vanish. -/
theorem value_sqr_pos (hz : z.IsWorking) (nonzero : z.im.value ≠ 0) (sum : z.sqr = .ok square) :
    0 < square.value := by
  have first : 0 ≤ nearest working.digits (|z.re.value| ^ 2) := nearest_nonneg (by positivity)
  have second := nearest_pos working_digits_pos (pow_pos (abs_pos.2 nonzero) 2)
  rw [value_sqr hz sum]
  exact nearest_pos working_digits_pos (add_pos_of_nonneg_of_pos first second)

/-- The modulus is the root of the sum of the squares. -/
theorem abs_eq_ok_iff : z.abs = .ok m ↔ ∃ square, z.sqr = .ok square ∧ square.sqrt = .ok m := by
  unfold abs
  cases z.sqr with
  | error => exact ⟨nofun, nofun⟩
  | ok square =>
    constructor
    · exact fun h => ⟨square, rfl, h⟩
    · rintro ⟨_, ⟨⟩, h⟩
      exact h

theorem isWorking_of_sqr (sum : z.sqr = .ok square) : square.IsWorking := yields_sqr z square sum

/-- Off the real axis the modulus is positive. -/
theorem abs_pos_of_im (hz : z.IsWorking) (nonzero : z.im.value ≠ 0) (modulus : z.abs = .ok m) :
    0 < m.value := by
  obtain ⟨square, sum, root⟩ := abs_eq_ok_iff.1 modulus
  have pos := value_sqr_pos hz nonzero sum
  rw [value_sqrt (isWorking_of_sqr sum) pos root]
  exact nearest_pos working_digits_pos (Precision.longRoot_pos pos)

/-- A modulus is refused for its size only. -/
theorem failsInArithmetic_abs (z : Complex) : FailsInArithmetic z.abs := by
  unfold abs
  refine failsInArithmetic_bind fun square sum => failsInArithmetic_sqrt ?_
  obtain ⟨a, first, sum⟩ := bind_eq_ok.1 sum
  obtain ⟨b, second, sum⟩ := bind_eq_ok.1 sum
  exact nonneg_of_add (nonneg_of_sqr first) (nonneg_of_sqr second) sum

/-! ## The cosine of the angle -/

/-- The real part is divided by the modulus to one at most. -/
theorem abs_div_abs_le_one (hz : z.IsWorking) (off : z.im.value ≠ 0) (modulus : z.abs = .ok m)
    (quotient : z.re.div m = .ok q) : |q.value| ≤ 1 := by
  have divisor := abs_pos_of_im hz off modulus
  have answer := div_answers hz.1 (yields_abs z m modulus) divisor.ne'
  rw [reported_eq_ok.1 quotient] at answer
  rw [answer.value_eq, abs_nearest, abs_div, abs_of_pos divisor]
  by_cases vanishes : z.re.value = 0
  · simp [vanishes]
  · obtain ⟨square, sum, root⟩ := abs_eq_ok_iff.1 modulus
    obtain ⟨k, e, low, high, magnitude, -⟩ := hz.1.exists_magnitude vanishes
    have pos := value_sqr_pos hz off sum
    have radicand := le_value_sqr hz vanishes sum
    rw [value_sqrt (isWorking_of_sqr sum) pos root, magnitude]
    rw [magnitude] at radicand
    exact Precision.nearest_div_nearest_longRoot_le_one pos low high (by decide) radicand

/-! ## Angle and logarithm -/

/-- Off the real line an argument is refused for sizes only. -/
theorem failsInArithmetic_arg (hz : z.IsWorking) (off : z.im.value ≠ 0) :
    FailsInArithmetic z.arg := by
  unfold arg
  rw [if_neg (mt isZero_iff_value.1 off)]
  refine (failsInArithmetic_abs z).bind fun m modulus => ?_
  refine failsInArithmetic_bind fun q quotient => ?_
  have small := abs_div_abs_le_one hz off modulus quotient
  exact (failsInArithmetic_arccos small).bind fun _ _ => .ok _

/-- Off the real line a logarithm is refused for sizes only. -/
theorem failsInArithmetic_ln (hz : z.IsWorking) (off : z.im.value ≠ 0) :
    FailsInArithmetic z.ln := by
  have complex : ¬z.isNonnegative = true := by
    have real : z.isReal = false := by
      rw [← Bool.not_eq_true]
      exact mt isZero_iff_value.1 off
    rw [isNonnegative, real]
    exact nofun
  unfold ln
  rw [if_neg complex]
  refine (failsInArithmetic_abs z).bind fun m modulus => ?_
  refine (Decimal.failsInArithmetic_ln (abs_pos_of_im hz off modulus)).bind fun _ _ => ?_
  exact (failsInArithmetic_arg hz off).bind fun _ _ => .ok _

/-- Off the real axis the quotient of the real part by the modulus, if there is one, is at most one in
magnitude, and neither the angle nor the logarithm refuses its argument. -/
theorem polar_form_in_domain (z : Complex) (hz : z.IsWorking) (off : z.isReal = false) :
    (∀ m q, z.abs = .ok m → z.re.div m = .ok q → |q.value| ≤ 1) ∧
    ∀ function reason, z.arg ≠ .error (.invalidArgument function reason) ∧
      z.ln ≠ .error (.invalidArgument function reason) := by
  have nonzero : z.im.value ≠ 0 := by
    intro vanishes
    rw [isReal, isZero_iff_value.2 vanishes] at off
    cases off
  refine ⟨fun m q modulus quotient => abs_div_abs_le_one hz nonzero modulus quotient, ?_⟩
  intro function reason
  exact ⟨(failsInArithmetic_arg hz nonzero).ne_invalidArgument function reason,
    (failsInArithmetic_ln hz nonzero).ne_invalidArgument function reason⟩

/-- Close to 3.50…02 on the real axis the modulus falls to 3.50…01, and the quotient is one. -/
theorem polar_form_of_smaller_modulus :
    let z : Complex := ⟨⟨35 * 10 ^ 134 + 2, -135, .inl (by decide)⟩, ⟨1, -200, .inl (by decide)⟩⟩
    z.IsWorking ∧ z.isReal = false ∧ (∃ m, z.abs = .ok m ∧ m < z.re ∧ z.re.div m = .ok 1) ∧
      |(1 : Decimal).value| ≤ 1 ∧ z.arg ≠ .error (.invalidArgument "acos" .arccosine) := by
  intro z
  have working : z.IsWorking := by decide +kernel
  have off : z.isReal = false := by decide +kernel
  have modulus : z.abs = .ok ⟨35 * 10 ^ 134 + 1, -135, .inl (by decide)⟩ := by decide +kernel
  have quotient : z.re.div ⟨35 * 10 ^ 134 + 1, -135, .inl (by decide)⟩ = .ok 1 := by decide +kernel
  obtain ⟨bounded, domain⟩ := polar_form_in_domain z working off
  exact ⟨working, off, ⟨_, modulus, by decide +kernel, quotient⟩, bounded _ _ modulus quotient,
    (domain "acos" .arccosine).1⟩

end Complex

end Calculator
