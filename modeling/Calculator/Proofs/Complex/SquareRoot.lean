import Calculator.Complex.Power
import Calculator.Proofs.Real.InverseTangent
import Calculator.Proofs.Real.Power

/-!
# Square roots of real numbers

The root of a number that is not negative is reached as the real root, as the power with exponent one
half and as the complex root, and the last two lead to the first. It is cut off, rounded to ten more
digits and rounded again. Its square is off by what these three amount to, and a root that fits into
the digits comes through all of them.
-/

namespace Calculator

open Precision (working)

namespace Decimal

variable {x y r : Decimal}

/-! ## The ways to the root -/

theorem pow_half (nonneg : 0 ≤ x.value) : x.pow (ofParts 5 (-1)) = x.sqrt := by
  have half : 0 < (ofParts 5 (-1)).value := by
    rw [value_ofParts]
    norm_num
  have sign := isNegative_eq_false nonneg
  by_cases vanishes : x.value = 0
  · rw [pow_zero_base vanishes half, isZero_iff.1 (isZero_iff_value.2 vanishes)]
    rfl
  · rw [pow_of_nonneg half.le (.inr half.ne')]
    unfold Precision.power Decimal.sqrt
    rw [if_neg (mt isZero_iff_value.1 half.ne'), if_neg (mt isZero_iff_value.1 vanishes), sign]
    rfl

/-! ## Accuracy -/

/-- Cut off and rounded twice, the root stays in a narrow band. -/
theorem sqrt_bounds (hx : x.IsWorking) (pos : 0 < x.value) (h : x.sqrt = .ok r) :
    (1 - 5001 / 1000 * 10 ^ (-136 : ℤ)) * working.widened.cutRoot x ≤ r.value ∧
      r.value ≤ (1 + 5001 / 1000 * 10 ^ (-136 : ℤ)) * working.widened.cutRoot x := by
  have cut := Precision.cutRoot_pos (p := working.widened) pos
  have long := Precision.longRoot_pos (p := working) pos
  have first := abs_le.1 (abs_nearest_sub_le (d := working.widened.digits)
    (q := working.widened.cutRoot x))
  have second := abs_le.1 (abs_nearest_sub_le (d := working.digits) (q := working.longRoot x))
  rw [roundoff_widened, abs_of_pos cut, ← Precision.longRoot] at first
  rw [roundoff_working, abs_of_pos long, ← value_sqrt hx pos h] at second
  norm_num at first second ⊢
  constructor <;> linarith

/-- The square of the rounded root: what is cut off and rounded away counts twice. -/
theorem abs_sq_sqrt_sub_le (hx : x.IsWorking) (pos : 0 < x.value) (h : x.sqrt = .ok r) :
    |r.value ^ 2 - x.value| ≤ 11 / 10 * 10 ^ (-135 : ℤ) * x.value := by
  have wide : working.widened.digits = 146 := rfl
  have cut := Precision.cutRoot_pos (p := working.widened) pos
  have least := Precision.cutRoot_sq_le (p := working.widened) pos
  have most := Precision.le_sq_cutRoot (p := working.widened) pos
  obtain ⟨low, high⟩ := sqrt_bounds hx pos h
  have narrow : (0 : ℚ) ≤ 1 - 5001 / 1000 * 10 ^ (-136 : ℤ) := by norm_num
  have lower := pow_le_pow_left₀ (mul_nonneg narrow cut.le) low 2
  have upper := pow_le_pow_left₀ ((mul_nonneg narrow cut.le).trans low) high 2
  rw [wide, mul_pow] at most
  rw [mul_pow] at lower upper
  rw [abs_le]
  norm_num at most lower upper ⊢
  constructor <;> linarith

/-! ## Exact roots -/

/-- A root that fits into the digits is not rounded. -/
theorem sqrt_of_sq (hx : x.IsWorking) (pos : 0 < x.value) (few : y.digits ≤ working.digits)
    (square : x.value = y.value ^ 2) (h : x.sqrt = .ok r) : r = y.abs := by
  have nonzero : y.value ≠ 0 := by
    intro vanishes
    rw [square, vanishes] at pos
    norm_num at pos
  have short : y.coefficient.natAbs < 10 ^ working.digits := (digits_le_iff working_digits_pos).1 few
  have some : 0 < y.coefficient.natAbs := Int.natAbs_pos.2 (mt value_eq_zero_iff.2 nonzero)
  have magnitude : y.abs.value = (y.coefficient.natAbs : ℚ) * 10 ^ y.exponent := rfl
  have root : working.longRoot x = y.abs.value := by
    rw [magnitude]
    refine Precision.longRoot_of_sq short some ?_
    rw [square, ← magnitude, value_abs, sq_abs]
  apply value_injective
  rw [value_sqrt hx pos h, root, magnitude, nearest_natCast_mul short working_digits_pos]

/-- There is always a root. That of zero is zero. -/
theorem exists_sqrt_of_nonneg (hx : x.IsWorking) (nonneg : 0 ≤ x.value) :
    ∃ r, x.sqrt = .ok r ∧ 0 ≤ r.value ∧
      |r.value ^ 2 - x.value| ≤ 11 / 10 * 10 ^ (-135 : ℤ) * x.value ∧
      ∀ y : Decimal, y.digits ≤ working.digits → x.value = y.value ^ 2 → r = y.abs := by
  rcases nonneg.eq_or_lt with vanishes | pos
  · obtain rfl := isZero_iff.1 (isZero_iff_value.2 vanishes.symm)
    refine ⟨zero, rfl, value_zero.ge, by rw [value_zero]; norm_num, fun y _ square => ?_⟩
    rw [value_zero, eq_comm, sq_eq_zero_iff] at square
    exact value_injective (by rw [value_zero, value_abs, square, abs_zero])
  · obtain ⟨r, root, -⟩ := exists_sqrt hx pos
    have positive : 0 ≤ r.value := by
      rw [value_sqrt hx pos root]
      exact nearest_nonneg (Precision.longRoot_pos pos).le
    exact ⟨r, root, positive, abs_sq_sqrt_sub_le hx pos root,
      fun y few square => sqrt_of_sq hx pos few square root⟩

end Decimal

namespace Complex

open Decimal

variable {x : Decimal}

theorem sqrt_ofReal (nonneg : 0 ≤ x.value) : (ofReal x).sqrt = x.sqrt.map ofReal := by
  have real : ((ofReal x).isNonnegative && (ofReal (ofParts 5 (-1))).isNonnegative) = true := by
    rw [isNonnegative, ofReal, isNegative_eq_false nonneg]
    rfl
  unfold Complex.sqrt pow
  rw [if_pos real, ofReal, ofReal, pow_half nonneg]
  cases x.sqrt <;> rfl

/-- The real root, the power with exponent one half and the complex root of a number that is not
negative are one number, and it is always answered. Its square is off by 1.1E-135 parts at most, and
it is exact when the number is the square of one of 136 digits. -/
theorem sqrt_on_every_path (hx : x.IsWorking) (nonneg : 0 ≤ x.value) :
    ∃ r, x.sqrt = .ok r ∧ x.pow (ofParts 5 (-1)) = .ok r ∧
      (ofReal x).sqrt = .ok (ofReal r) ∧ 0 ≤ r.value ∧
      |r.value ^ 2 - x.value| ≤ 11 / 10 * 10 ^ (-135 : ℤ) * x.value ∧
      ∀ y : Decimal, y.digits ≤ 136 → x.value = y.value ^ 2 → r = y.abs := by
  obtain ⟨r, root, sign, near, fits⟩ := exists_sqrt_of_nonneg hx nonneg
  refine ⟨r, root, ?_, ?_, sign, near, fits⟩
  · rw [pow_half nonneg, root]
  · rw [sqrt_ofReal nonneg, root]
    rfl

/-- The square of 68 nines has 136 digits. -/
theorem sqrt_of_nines :
    let y : Decimal := ofInt (10 ^ 68 - 1)
    let x : Decimal := ofInt ((10 ^ 68 - 1) ^ 2)
    x.IsWorking ∧ 0 ≤ x.value ∧ x.sqrt = .ok y ∧ x.pow (ofParts 5 (-1)) = .ok y ∧
      (ofReal x).sqrt = .ok (ofReal y) := by
  intro y x
  have working : x.IsWorking := by decide
  have square : x.value = y.value ^ 2 := by
    rw [value_ofInt, value_ofInt]
    push_cast
    rfl
  have nonneg : 0 ≤ x.value := square ▸ sq_nonneg y.value
  obtain ⟨r, root, power, complex, -, -, fits⟩ := sqrt_on_every_path working nonneg
  have same : r = y := (fits y (by decide) square).trans (by decide)
  rw [same] at root power complex
  exact ⟨working, nonneg, root, power, complex⟩

end Complex

end Calculator
