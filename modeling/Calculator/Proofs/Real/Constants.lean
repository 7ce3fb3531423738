import Calculator.Proofs.Real.ExponentialAccuracy

/-!
# The constants

The ratio of a circle and the base of the natural logarithms are the exact numbers rounded to 136
digits, but for what their series leave. The ratio, which is computed from inverse tangents, is also
what the iteration of the arithmetic and the geometric mean ends with.
-/

namespace Calculator

open Real (log)

/-- A number of one digit before the point, known up to `ε`, is off by half a unit of its last place
more once it is rounded. -/
theorem abs_nearest_sub_le_of_near {d : ℕ} {q : ℚ} {ξ ε : ℝ} (low : ε < ξ) (high : ξ + ε < 10)
    (near : |(q : ℝ) - ξ| ≤ ε) :
    |((nearest d q : ℚ) : ℝ) - ξ| ≤ 1 / 2 * 10 ^ (1 - d : ℤ) + ε := by
  obtain ⟨below, above⟩ := abs_le.1 near
  have pos : 0 < q := by
    have real : (0 : ℝ) < q := by linarith
    exact_mod_cast real
  have top : q < 10 ^ d * 10 ^ (1 - d : ℤ) := by
    have ten : (10 : ℚ) ^ d * 10 ^ (1 - d : ℤ) = 10 := by
      rw [← zpow_natCast, ← zpow_add₀ (by norm_num), add_sub_cancel, zpow_one]
    have real : (q : ℝ) < (10 : ℚ) := by
      push_cast
      linarith
    rw [ten]
    exact Rat.cast_lt.1 real
  have rounded := Rat.cast_le (K := ℝ).2 (abs_nearest_sub_le_half pos top)
  push_cast at rounded
  exact (abs_sub_le _ (q : ℝ) _).trans (add_le_add rounded near)

namespace Decimal

open Precision (working transcendentalLaws)

/-! ## The ratio of a circle -/

/-- The ratio is off by less than a unit of its last place. -/
theorem abs_pi_sub_le : |(pi.value : ℝ) - Real.pi| ≤ 10 ^ (-135 : ℤ) := by
  have value : pi.value = nearest working.digits (Series.pi 176 * 10 ^ (-176 : ℤ)) :=
    value_ofPartsRounded working_digits_pos
  have series := abs_le.1 (Series.pi_near (by decide : 0 < 176))
  have error : 20 * Series.cutError 176 ≤ 10 ^ 5 := by
    unfold Series.cutError
    norm_num
  rw [Precision.cast_tenPow] at series
  have long : |((Series.pi 176 * 10 ^ (-176 : ℤ) : ℚ) : ℝ) - Real.pi| ≤ 10 ^ (-171 : ℤ) := by
    push_cast
    norm_num at series error ⊢
    exact abs_le.2 ⟨by linarith, by linarith⟩
  have two := Real.two_le_pi
  have four := Real.pi_le_four
  have small : (10 : ℝ) ^ (-171 : ℤ) ≤ 1 := by norm_num
  rw [value]
  refine (abs_nearest_sub_le_of_near (by linarith) (by linarith) long).trans ?_
  have places : working.digits = 136 := rfl
  rw [places]
  norm_num

/-- The digits of the ratio. -/
example : pi = .ofParts
    3141592653589793238462643383279502884197169399375105820974944592307816406286208998628034825342117067982148086513282306647093844609550582 (-135) := by
  decide +kernel

/-- Where the iteration for the ratio stands: the two means, what the squares of their changes have
left of a quarter, and the weight of the next square. -/
structure Means where
  arithmetic : Decimal
  geometric : Decimal
  area : Decimal
  weight : Decimal

namespace Means

/-- The operations of the iteration keep ten guard digits and do not look at the exponent. -/
def rounded (x : Decimal) : Decimal := working.widened.lift x

/-- The quotient with ten guard digits. -/
def quotient (x y : Decimal) : Decimal :=
  let (c, e) := working.widened.quotientParts x y
  ofPartsRounded working.widened.digits c e

/-- The square root with ten guard digits. -/
def root (x : Decimal) : Decimal :=
  let (c, e) := working.widened.rootParts x
  ofPartsRounded working.widened.digits c e

/-- One and the root of a half. -/
def start : Means :=
  { arithmetic := 1, geometric := quotient 1 (root 2), area := ofParts 25 (-2), weight := 1 }

/-- The means are as close as the digits of the result tell. -/
def isDone (m : Means) : Bool :=
  decide ((rounded (m.arithmetic - m.geometric)).abs ≤ ofParts 1 (-136))

/-- Takes both means of the means, and the square of the change off the area. -/
def step (m : Means) : Means :=
  let arithmetic := quotient (rounded (m.arithmetic + m.geometric)) 2
  let change := rounded (m.arithmetic - arithmetic)
  { arithmetic
    geometric := root (rounded (m.arithmetic * m.geometric))
    area := rounded (m.area - rounded (m.weight * rounded (change * change)))
    weight := rounded (m.weight * 2) }

/-- The square of the sum of the means by four areas, without the guard digits. -/
def ratio (m : Means) : Decimal :=
  let sum := rounded (m.arithmetic + m.geometric)
  (quotient (rounded (sum * sum)) (rounded (4 * m.area))).roundTo working.digits

end Means

/-- The iteration is done after seven steps and not before, and then gives the ratio. -/
theorem pi_eq_ratio :
    (∀ k < 7, (Means.step^[k] .start).isDone = false) ∧ (Means.step^[7] .start).isDone = true ∧
      (Means.step^[7] .start).ratio = pi := by
  decide +kernel

/-! ## The base of the natural logarithms -/

/-- The base is off by less than a unit of its last place. -/
theorem abs_e_sub_le : |(e.value : ℝ) - Real.exp 1| ≤ 10 ^ (-135 : ℤ) := by
  have wide := working.widened_pos
  have one : |(1 : Decimal).value| ≤ 10 ^ 7 := by
    rw [value_one]
    norm_num
  have positive := transcendentalLaws.exp_pos (p := working.widened) (by decide) one
  have near := transcendentalLaws.exp_near (p := working.widened) (by decide) one
  have unit : (11 - (working.widened.digits + Precision.guardPlaces : ℕ) : ℤ) = -175 := rfl
  have value : e.value = nearest working.digits (nearest working.widened.digits
      ((working.widened.expParts 1).1 * 10 ^ (working.widened.expParts 1).2)) := by
    rw [e, value_roundTo _ working_digits_pos, value_ofPartsRounded wide]
  rw [unit, value_one, Rat.cast_one] at near
  generalize working.widened.expParts 1 = parts at positive near value
  have result : (0 : ℝ) < parts.1 * 10 ^ parts.2 := mul_pos (by exact_mod_cast positive) (by positivity)
  have base := Real.exp_one_lt_d9
  have lower := Real.exp_one_gt_d9
  have series : |((parts.1 * 10 ^ parts.2 : ℚ) : ℝ) - Real.exp 1| ≤ 10 ^ (-174 : ℤ) := by
    rw [← Real.log_exp 1] at near
    have part := abs_sub_le_of_abs_log_sub_le result (Real.exp_pos 1) (by norm_num) near
    push_cast
    refine part.trans ?_
    norm_num
    linarith
  have first := abs_nearest_sub_le_of_near (d := working.widened.digits)
    (by norm_num; linarith) (by norm_num; linarith) series
  have places : working.digits = 136 := rfl
  have wide_places : working.widened.digits = 146 := rfl
  rw [wide_places] at first value
  rw [value]
  refine (abs_nearest_sub_le_of_near ?_ ?_ first).trans ?_
  · norm_num
    linarith
  · norm_num
    linarith
  · rw [places]
    norm_num

/-- The digits of the base. -/
example : e = .ofParts
    2718281828459045235360287471352662497757247093699959574966967627724076630353547594571382178525166427427466391932003059921817413596629044 (-135) := by
  decide +kernel

end Decimal

end Calculator
