import Calculator.Proofs.Real.Working
import Calculator.Real.Trigonometry

/-!
# Operations under a change of sign

Rounding goes away from zero at a half, so it does not see the sign of a number, and neither does
the check of the size. An operation on numbers with the opposite sign therefore answers the number
with the opposite sign, or fails with the same error. The sine is odd and the cosine even, to the
last digit: the sum of the series takes the same number of terms for an angle and its opposite, and
every term only changes its sign. The tangents are then odd, and so are the inverse tangent and the
inverse sine.
-/

namespace Calculator

/-! ## Mapped answers -/

section Answers

variable {ε ε' α β : Type}

/-- A function of the value and a renaming of the error do not meet. -/
theorem map_mapError (f : α → β) (g : ε → ε') (r : Except ε α) :
    (f <$> r).mapError g = f <$> r.mapError g := by
  cases r <;> rfl

theorem reported_map (f : α → β) (r : Except Condition α) :
    reported (f <$> r) = f <$> reported r := map_mapError f _ r

theorem liftM_map (f : α → β) (r : Except ArithmeticError α) :
    (liftM (f <$> r) : Except MathError β) = f <$> (liftM r : Except MathError α) :=
  map_mapError f _ r

/-- A refusal before the rest is not mapped. -/
theorem map_guard (f : α → β) {c : Prop} [Decidable c] {e : ε} {rest : PUnit → Except ε α} :
    f <$> (if c then throw e >>= rest else rest ⟨⟩) =
      if c then throw e >>= fun u => f <$> rest u else f <$> rest ⟨⟩ := by
  split <;> rfl

end Answers

open Precision (working)

/-! ## Rounding -/

namespace Decimal

/-- Stripping the zeros of a coefficient keeps its sign. -/
theorem ofParts_neg (c e : ℤ) : ofParts (-c) e = -ofParts c e := by
  apply value_injective
  rw [value_neg, value_ofParts, value_ofParts, Int.cast_neg, neg_mul]

/-- Halves go away from zero on both sides, so rounding is odd. -/
theorem ofPartsRounded_neg (digits : ℕ) (c e : ℤ) :
    ofPartsRounded digits (-c) e = -ofPartsRounded digits c e := by
  simp only [ofPartsRounded, Int.natAbs_neg, Int.sign_neg, neg_mul, ofParts_neg]
  split <;> rfl

theorem roundTo_neg (x : Decimal) (digits : ℕ) : (-x).roundTo digits = -x.roundTo digits :=
  ofPartsRounded_neg digits x.coefficient x.exponent

/-- The sign is not a digit. -/
theorem digits_neg (x : Decimal) : (-x).digits = x.digits := by
  rw [digits, digits, coefficient_neg, Int.natAbs_neg]

/-- The place of the first digit does not depend on the sign. -/
theorem adjusted_neg (x : Decimal) : (-x).adjusted = x.adjusted := by
  rw [adjusted, adjusted, digits_neg, exponent_neg]

theorem isZero_neg (x : Decimal) : (-x).isZero = x.isZero := by
  rw [Bool.eq_iff_iff, isZero_iff_value, isZero_iff_value, value_neg, neg_eq_zero]

/-- Zero has no sign; another number changes it. -/
theorem isNegative_neg {x : Decimal} (nonzero : x.isZero = false) :
    (-x).isNegative = !x.isNegative := by
  have : x.coefficient ≠ 0 := by simpa [isZero] using nonzero
  rw [isNegative, isNegative, coefficient_neg, Bool.eq_iff_iff]
  simp only [decide_eq_true_eq, Bool.not_eq_true', decide_eq_false_iff_not]
  omega

theorem abs_neg_eq (x : Decimal) : (-x).abs = x.abs := by
  apply value_injective
  rw [value_abs, value_abs, value_neg, abs_neg]

/-- Writing a number with a smaller exponent keeps the sign. -/
theorem coefficientAt_neg (x : Decimal) (e : ℤ) : (-x).coefficientAt e = -x.coefficientAt e := by
  simp only [coefficientAt, coefficient_neg, exponent_neg, neg_eq_zero, neg_mul]
  split <;> simp

end Decimal

/-! ## Primitives -/

namespace Precision

open Decimal

variable (p : Precision) (x y z : Decimal) (c e : ℤ)

theorem lift_neg : p.lift (-x) = -p.lift x := roundTo_neg x p.digits

/-- The bounds are symmetric, so a number is refused together with its opposite. -/
theorem check_neg : check (-x) = Neg.neg <$> check x := by
  simp only [check, isZero_neg, adjusted_neg, apply_ite (Functor.map (f := Except Condition) _)]
  rfl

/-- So a primitive that rounds an odd result is odd. -/
theorem round_neg : p.round (-x) = Neg.neg <$> p.round x := by
  rw [round, lift_neg, check_neg, round]

/-- Exact results with opposite values are rounded to opposite numbers. -/
theorem round_opposite {x y : Decimal} (opposite : y.value = -x.value) :
    p.round y = Neg.neg <$> p.round x := by
  obtain rfl : y = -x := value_injective (opposite.trans (value_neg x).symm)
  exact p.round_neg x

theorem roundParts_neg : p.roundParts (-c) e = Neg.neg <$> p.roundParts c e := by
  rw [roundParts, ofPartsRounded_neg, check_neg, roundParts]

/-- The sum of the rounded operands does not depend on their order. -/
theorem add_swap : p.add x y = p.add y x := by
  have same : p.lift x + p.lift y = p.lift y + p.lift x := value_injective (by simp [add_comm])
  rw [add, add, same]

theorem add_neg_neg : p.add (-x) (-y) = Neg.neg <$> p.add x y := by
  refine p.round_opposite ?_
  simp only [lift_neg, value_add, value_neg]
  ring

/-- A difference with its operands exchanged is the opposite one. -/
theorem subtract_swap : p.subtract y x = Neg.neg <$> p.subtract x y := by
  refine p.round_opposite ?_
  simp only [value_sub]
  ring

theorem subtract_neg_neg : p.subtract (-x) (-y) = Neg.neg <$> p.subtract x y := by
  refine p.round_opposite ?_
  simp only [lift_neg, value_sub, value_neg]
  ring

theorem multiply_swap : p.multiply x y = p.multiply y x := by
  have same : p.lift x * p.lift y = p.lift y * p.lift x := value_injective (by simp [mul_comm])
  rw [multiply, multiply, same]

theorem multiply_neg : p.multiply x (-y) = Neg.neg <$> p.multiply x y := by
  refine p.round_opposite ?_
  simp only [lift_neg, value_mul, value_neg]
  ring

/-- The condition tells whether the dividend is zero, and not its sign. -/
theorem zeroDivisor_neg : zeroDivisor (-x) = zeroDivisor x := by
  rw [zeroDivisor, isZero_neg, zeroDivisor]

/-- The quotient is cut off toward zero before it is rounded, which is odd. -/
theorem divide_neg_left : p.divide (-x) y = Neg.neg <$> p.divide x y := by
  simp only [divide, quotientParts, lift_neg, digits_neg, coefficient_neg, exponent_neg,
    zeroDivisor_neg, neg_mul, Int.neg_tdiv, roundParts_neg]
  split <;> rfl

theorem divide_neg_right : p.divide x (-y) = Neg.neg <$> p.divide x y := by
  simp only [divide, quotientParts, lift_neg, digits_neg, coefficient_neg, exponent_neg,
    isZero_neg, Int.tdiv_neg, roundParts_neg]
  split <;> rfl

/-- The integer quotient and the coefficient of the remainder change their signs. -/
theorem quotientRemainder_neg :
    p.quotientRemainder (-x) y = (fun (q, r, e) => (-q, -r, e)) <$> p.quotientRemainder x y := by
  simp only [quotientRemainder, isZero_neg, adjusted_neg, zeroDivisor_neg, exponent_neg,
    coefficientAt_neg, Int.neg_tdiv, Int.neg_tmod, Int.natAbs_neg,
    apply_ite (Functor.map (f := Except Condition) _)]
  rfl

/-- A remainder has the sign of its dividend. -/
theorem remainder_neg : p.remainder (-x) y = Neg.neg <$> p.remainder x y := by
  simp only [remainder, quotientRemainder_neg, bind_map_left, roundParts_neg, map_bind]

end Precision

/-! ## Real arithmetic -/

namespace Decimal

variable (x y : Decimal)

theorem add_swap : x.add y = y.add x := by rw [add, Precision.add_swap, add]

theorem add_neg_neg : (-x).add (-y) = Neg.neg <$> x.add y := by
  rw [add, Precision.add_neg_neg, reported_map, add]

theorem sub_swap : y.sub x = Neg.neg <$> x.sub y := by
  rw [sub, Precision.subtract_swap, reported_map, sub]

theorem sub_neg_neg : (-x).sub (-y) = Neg.neg <$> x.sub y := by
  rw [sub, Precision.subtract_neg_neg, reported_map, sub]

theorem mul_neg_right : x.mul (-y) = Neg.neg <$> x.mul y := by
  rw [mul, Precision.multiply_neg, reported_map, mul]

theorem mul_neg_left : (-x).mul y = Neg.neg <$> x.mul y := by
  rw [mul, Precision.multiply_swap, Precision.multiply_neg, Precision.multiply_swap, reported_map,
    mul]

theorem mul_neg_neg : (-x).mul (-y) = x.mul y := by
  rw [mul_neg_left, mul_neg_right, Functor.map_map]
  simp

theorem sqr_neg : (-x).sqr = x.sqr := mul_neg_neg x x

theorem div_neg_left : (-x).div y = Neg.neg <$> x.div y := by
  rw [div, Precision.divide_neg_left, reported_map, div]

theorem div_neg_right : x.div (-y) = Neg.neg <$> x.div y := by
  rw [div, Precision.divide_neg_right, reported_map, div]

theorem rem_neg : (-x).rem y = Neg.neg <$> x.rem y := by
  rw [rem, Precision.remainder_neg, reported_map, rem]

theorem roundToPrecision_neg (digits : ℕ) :
    (-x).roundToPrecision digits = Neg.neg <$> x.roundToPrecision digits := by
  rw [roundToPrecision, Precision.round_neg, reported_map, roundToPrecision]

/-! ## Sine and cosine -/

/-- The sum whose terms have the opposite signs. -/
def AlternatingSum.neg (s : AlternatingSum) : AlternatingSum :=
  { s with sum := -s.sum, term := -s.term, numerator := -s.numerator }

/-- The loop is left at the size of the last term. -/
theorem AlternatingSum.isDone_neg (s : AlternatingSum) : s.neg.isDone = s.isDone := by
  rw [isDone, neg, abs_neg_eq, isDone]

/-- A step of the opposite sum gives the opposite of the next one. -/
theorem AlternatingSum.step_neg (square : Decimal) (s : AlternatingSum) :
    s.neg.step square = neg <$> s.step square := by
  simp only [step, neg, mul_neg_left, div_neg_left, bind_map_left, map_bind]
  refine bind_congr fun numerator => bind_congr fun factor => bind_congr fun denominator =>
    bind_congr fun count => bind_congr fun term => ?_
  by_cases subtracting : s.subtracting = true
  · simp only [subtracting, if_true, sub_neg_neg, bind_map_left, map_bind, map_pure, neg]
  · simp only [subtracting, if_false, Bool.false_eq_true, add_neg_neg, bind_map_left, map_bind,
      map_pure, neg]

/-- So the loop takes the same steps for both sums. -/
theorem AlternatingSum.run_neg (square : Decimal) (n : ℕ) (s : AlternatingSum) :
    run square n s.neg = neg <$> run square n s := by
  induction n generalizing s with
  | zero => rfl
  | succ n ih =>
    rw [run, run, isDone_neg, step_neg]
    split
    · rfl
    · rw [bind_map_left, map_bind]
      exact bind_congr ih

/-- The series is odd in its first term and even in the angle. -/
theorem alternatingSeries_neg (first angle count : Decimal) :
    alternatingSeries (-first) (-angle) count =
      Neg.neg <$> alternatingSeries first angle count := by
  simp only [alternatingSeries, sqr_neg, map_bind]
  refine bind_congr fun square => ?_
  have start : AlternatingSum.start (-first) count = (AlternatingSum.start first count).neg := rfl
  rw [start, AlternatingSum.run_neg, bind_map_left]
  rfl

/-- The series sees the angle through its square only. -/
theorem alternatingSeries_angle_neg (first angle count : Decimal) :
    alternatingSeries first (-angle) count = alternatingSeries first angle count := by
  rw [alternatingSeries, sqr_neg, alternatingSeries]

/-- The threshold is compared with the size. -/
theorem snapToZero_neg : snapToZero (-x) = Neg.neg <$> snapToZero x := by
  simp only [snapToZero, roundToPrecision_neg, bind_map_left, map_bind, abs_neg_eq]
  refine bind_congr fun shown => ?_
  split
  · rw [map_pure, neg_zero_eq]
  · rw [map_pure]

/-- The whole turns are counted toward zero. -/
theorem reduceAngle_neg : (-x).reduceAngle = Neg.neg <$> x.reduceAngle := by
  simp only [reduceAngle, rem_neg, map_bind]

/-- The sine is odd. -/
theorem sin_neg : (-x).sin = Neg.neg <$> x.sin := by
  simp only [sin, reduceAngle_neg, liftM_map, bind_map_left, map_bind, alternatingSeries_neg,
    snapToZero_neg]

/-- The cosine is even. -/
theorem cos_neg : (-x).cos = x.cos := by
  simp only [cos, reduceAngle_neg, liftM_map, bind_map_left, alternatingSeries_angle_neg]

/-- The tangent is odd. -/
theorem tan_neg : (-x).tan = Neg.neg <$> x.tan := by
  simp only [tan, reduceAngle_neg, cos_neg, sin_neg, div_neg_left, liftM_map, bind_map_left,
    map_bind, map_guard]

/-- The cotangent is odd; the check for a zero sine does not see its sign. -/
theorem cot_neg : (-x).cot = Neg.neg <$> x.cot := by
  simp only [cot, reduceAngle_neg, cos_neg, sin_neg, isZero_neg, div_neg_right, liftM_map,
    bind_map_left, map_bind, map_guard]

/-! ## Inverse tangent and sine -/

/-- The sum whose terms have the opposite signs. -/
def OddSum.neg (s : OddSum) : OddSum :=
  { s with sum := -s.sum, term := -s.term, numerator := -s.numerator }

/-- The loop is left at the size of the last term. -/
theorem OddSum.isDone_neg (s : OddSum) : s.neg.isDone = s.isDone := by
  rw [isDone, neg, abs_neg_eq, isDone]

/-- A step of the opposite sum gives the opposite of the next one. -/
theorem OddSum.step_neg (factor : Decimal) (s : OddSum) :
    s.neg.step factor = neg <$> s.step factor := by
  simp only [step, neg, mul_neg_left, div_neg_left, add_neg_neg, bind_map_left, map_bind, map_pure]

/-- So the loop takes the same steps for both sums. -/
theorem OddSum.run_neg (factor : Decimal) (n : ℕ) (s : OddSum) :
    run factor n s.neg = neg <$> run factor n s := by
  induction n generalizing s with
  | zero => rfl
  | succ n ih =>
    rw [run, run, isDone_neg, step_neg]
    split
    · rfl
    · rw [bind_map_left, map_bind]
      exact bind_congr ih

theorem arctanSeries_neg : (-x).arctanSeries = Neg.neg <$> x.arctanSeries := by
  simp only [arctanSeries, sqr_neg, map_bind]
  refine bind_congr fun square => ?_
  have start : OddSum.start (-x) = (OddSum.start x).neg := rfl
  rw [start, OddSum.run_neg, bind_map_left]
  rfl

/-- The divisor depends on the square only. -/
theorem halvedTangent_neg : (-x).halvedTangent = Neg.neg <$> x.halvedTangent := by
  simp only [halvedTangent, sqr_neg, div_neg_left, liftM_map, map_bind]

/-- A number and its opposite are halved equally often. -/
theorem arctanHalving_neg (limit : ℕ) :
    (-x).arctanHalving limit = Neg.neg <$> x.arctanHalving limit := by
  induction limit generalizing x with
  | zero => simp only [arctanHalving, arctanSeries_neg, liftM_map]
  | succ limit ih =>
    simp only [arctanHalving, abs_neg_eq]
    split
    · simp only [halvedTangent_neg, ih, mul_neg_left, liftM_map, bind_map_left, map_bind]
    · rw [arctanSeries_neg, liftM_map]

/-- The inverse tangent is odd. -/
theorem arctan_neg : (-x).arctan = Neg.neg <$> x.arctan := arctanHalving_neg x 8

/-- The inverse sine is odd. -/
theorem arcsin_neg : (-x).arcsin = Neg.neg <$> x.arcsin := by
  have flipped {y : Decimal} : -x = y ↔ x = -y := by
    constructor <;> rintro rfl <;> rw [neg_neg]
  have apart : (1 : Decimal) ≠ -1 := by decide
  simp only [arcsin, flipped, neg_neg, abs_neg_eq, sqr_neg]
  -- at the ends of the domain the two values are given, one for each side
  by_cases upper : x = 1
  · simp only [upper, apart, if_true, if_false, bind_pure_comp]
  · by_cases lower : x = -1
    · simp only [lower, apart.symm, if_true, if_false, bind_pure_comp, Functor.map_map, neg_neg,
        id_map']
    · simp only [upper, lower, if_false]
      split
      · rfl
      · simp only [div_neg_left, arctan_neg, map_bind, bind_map_left, liftM_map]

end Decimal

end Calculator
