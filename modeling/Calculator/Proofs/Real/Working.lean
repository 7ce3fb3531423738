import Calculator.Proofs.Precision.Operations
import Calculator.Real.Arithmetic

/-!
# Working values

The operations on real numbers take and give working values: zero, and the numbers of at most 136
digits whose leading digit is within the exponent bounds. On them an operation answers what
`Answers` says about its exact result, with the condition told as an arithmetic error.
-/

namespace Calculator

open Precision (working exponentBound InRange Answers)

/-- Renaming a condition as an error does not touch the value. -/
theorem reported_eq_ok {α : Type} {r : Except Condition α} {x : α} :
    reported r = .ok x ↔ r = .ok x := by
  cases r <;> simp [reported, Except.mapError]

/-- Nor does renaming an error. -/
theorem liftM_eq_ok {α : Type} {r : Except ArithmeticError α} {v : α} :
    (liftM r : Except MathError α) = .ok v ↔ r = .ok v := by
  change r.mapError _ = _ ↔ _
  cases r <;> simp [Except.mapError]

namespace Decimal

/-- Zero, or a number of at most 136 digits with an exponent within the bounds. -/
def IsWorking (x : Decimal) : Prop :=
  x.isZero = true ∨
    x.digits ≤ working.digits ∧ -exponentBound ≤ x.adjusted ∧ x.adjusted ≤ exponentBound

instance (x : Decimal) : Decidable x.IsWorking := inferInstanceAs (Decidable (_ ∨ _))

theorem working_digits_pos : 0 < working.digits := by decide

variable {x y z : Decimal}

/-- A working value has at most 136 digits. -/
theorem IsWorking.digits_le (h : x.IsWorking) : x.digits ≤ working.digits := by
  rcases h with vanishes | ⟨few, -⟩
  · rw [isZero_iff.1 vanishes]
    decide
  · exact few

/-- A working value is not rounded as an operand. -/
theorem IsWorking.lift_eq (h : x.IsWorking) : working.lift x = x := roundTo_eq_self h.digits_le

/-- A working value is within the bounds. -/
theorem IsWorking.inRange (h : x.IsWorking) : InRange x.value := by
  by_cases vanishes : x.value = 0
  · exact .inl vanishes
  · rcases h with zero | ⟨-, low, high⟩
    · exact absurd (isZero_iff_value.1 zero) vanishes
    · rw [adjusted_eq_log (mt value_eq_zero_iff.2 vanishes)] at low high
      exact .inr ⟨low, high⟩

/-- These two are all that it takes. -/
theorem isWorking_iff : x.IsWorking ↔ x.digits ≤ working.digits ∧ InRange x.value := by
  constructor
  · intro h
    exact ⟨h.digits_le, h.inRange⟩
  · rintro ⟨few, vanishes | bounds⟩
    · exact .inl (isZero_iff_value.2 vanishes)
    · by_cases vanishes : x.value = 0
      · exact .inl (isZero_iff_value.2 vanishes)
      · rw [← adjusted_eq_log (mt value_eq_zero_iff.2 vanishes)] at bounds
        exact .inr ⟨few, bounds⟩

/-- The first digit of a working value has a bounded place. -/
theorem IsWorking.abs_adjusted_le (h : x.IsWorking) : |x.adjusted| ≤ exponentBound := by
  rcases h with vanishes | ⟨-, low, high⟩
  · rw [isZero_iff.1 vanishes]
    decide
  · exact abs_le.2 ⟨low, high⟩

/-- The exponent of a working value has fewer digits than are read. -/
theorem IsWorking.adjusted_short (h : x.IsWorking) : x.adjusted.natAbs + 2 < 10 ^ 15 := by
  have bound : exponentBound = 999999 := rfl
  obtain ⟨low, high⟩ := abs_le.1 h.abs_adjusted_le
  omega

theorem isWorking_zero : zero.IsWorking := .inl rfl

theorem IsWorking.neg (h : x.IsWorking) : (-x).IsWorking := by
  refine isWorking_iff.2 ⟨?_, ?_⟩
  · have same : (-x).digits = x.digits := by rw [digits, digits, coefficient_neg, Int.natAbs_neg]
    rw [same]
    exact h.digits_le
  · rw [InRange, value_neg, neg_eq_zero, abs_neg]
    exact h.inRange

theorem IsWorking.abs (h : x.IsWorking) : x.abs.IsWorking := by
  have choice := signed_abs x
  split at choice
  · rw [← Decimal.neg_neg x.abs, choice]
    exact h.neg
  · rwa [choice]

/-- A working value is the answer to itself. -/
theorem IsWorking.answers (h : x.IsWorking) : Answers working.digits x.value (.ok x) := by
  have kept := nearest_value h.digits_le working_digits_pos
  exact .value x kept.symm (kept.symm ▸ h.inRange)

/-! ## Answers of the operations -/

/-- The operations round the exact result for the values of their operands. -/
theorem add_answers (hx : x.IsWorking) (hy : y.IsWorking) :
    Answers working.digits (x.value + y.value) (working.add x y) := by
  have := Precision.add_answers x y working_digits_pos
  rwa [hx.lift_eq, hy.lift_eq] at this

theorem sub_answers (hx : x.IsWorking) (hy : y.IsWorking) :
    Answers working.digits (x.value - y.value) (working.subtract x y) := by
  have := Precision.subtract_answers x y working_digits_pos
  rwa [hx.lift_eq, hy.lift_eq] at this

theorem mul_answers (hx : x.IsWorking) (hy : y.IsWorking) :
    Answers working.digits (x.value * y.value) (working.multiply x y) := by
  have := Precision.multiply_answers x y working_digits_pos
  rwa [hx.lift_eq, hy.lift_eq] at this

theorem div_answers (hx : x.IsWorking) (hy : y.IsWorking) (nonzero : y.value ≠ 0) :
    Answers working.digits (x.value / y.value) (working.divide x y) := by
  have := Precision.divide_answers (a := x) working_digits_pos nonzero
  rwa [hx.lift_eq, hy.lift_eq] at this

/-- Zero does not divide. -/
theorem div_eq_of_value_zero (vanishes : y.value = 0) : x.div y = .error .divisionByZero := by
  rw [div, Precision.divide_zero vanishes, Precision.zeroDivisor]
  split <;> rfl

/-- The numbers that the operations answer are working values. -/
theorem isWorking_of_round (h : working.round x = .ok y) : y.IsWorking := by
  have answer := Precision.round_answers (p := working) x working_digits_pos
  rw [h] at answer
  exact isWorking_iff.2 ⟨Precision.digits_le_of_round working_digits_pos h, answer.inRange⟩

/-- A product is a working value whatever its factors are. -/
theorem isWorking_of_mul (h : x.mul y = .ok z) : z.IsWorking :=
  isWorking_of_round (reported_eq_ok.1 h)

/-- A number that is rounded to fewer digits within the bounds is a working value. -/
theorem roundToPrecision_eq_ok {d : ℕ} (digit : 0 < d) (few : d ≤ working.digits)
    (h : x.roundToPrecision d = .ok y) : y = x.roundTo d ∧ y.IsWorking := by
  have rounded := reported_eq_ok.1 h
  have answer := Precision.round_answers (p := ⟨d⟩) x digit
  rw [rounded] at answer
  have same : y = x.roundTo d := Precision.check_digits rounded
  refine ⟨same, isWorking_iff.2 ⟨?_, answer.inRange⟩⟩
  rw [same]
  exact (digits_roundTo_le x digit).trans few

/-! ## Sizes that are refused -/

/-- What overflows is larger than every working value. -/
theorem IsWorking.abs_lt_of_overflow {q : ℚ} (hx : x.IsWorking)
    (h : Answers working.digits q (.error .overflow)) : |x.value| < |q| := by
  by_contra smaller
  cases h with
  | overflow nonzero large =>
    have kept := nearest_value hx.digits_le working_digits_pos
    have le := abs_nearest_mono working_digits_pos (not_lt.1 smaller)
    have pos : 0 < |nearest working.digits q| :=
      abs_pos.2 (mt (nearest_eq_zero_iff working_digits_pos).1 nonzero)
    have log_le := Int.log_mono_right (b := 10) pos le
    rw [kept] at le log_le
    rcases hx.inRange with vanishes | ⟨-, high⟩
    · rw [vanishes, abs_zero] at le
      exact absurd pos (not_lt.2 le)
    · omega

/-- What underflows is smaller than every working value but zero. -/
theorem IsWorking.abs_gt_of_underflow {q : ℚ} (hx : x.IsWorking) (nonzero : x.value ≠ 0)
    (h : Answers working.digits q (.error .underflow)) : |q| < |x.value| := by
  by_contra larger
  cases h with
  | underflow _ small =>
    have kept := nearest_value hx.digits_le working_digits_pos
    have le := abs_nearest_mono working_digits_pos (not_lt.1 larger)
    rw [kept] at le
    have log_le := Int.log_mono_right (b := 10) (abs_pos.2 nonzero) le
    rcases hx.inRange with vanishes | ⟨low, -⟩
    · exact nonzero vanishes
    · omega

/-- A product is refused where the factor takes it further than the other operand: it grows beyond
the bounds by a factor above one, and vanishes by one below one. -/
theorem mul_eq_error {e : ArithmeticError} (hx : x.IsWorking) (hy : y.IsWorking)
    (h : x.mul y = .error e) :
    e = .overflow ∧ 1 < |y.value| ∨ e = .underflow ∧ |y.value| < 1 := by
  have answer := mul_answers hx hy
  unfold mul reported at h
  cases product : working.multiply x y with
  | ok => rw [product] at h; cases h
  | error c =>
    rw [product] at h answer
    obtain rfl := (Except.error.inj h).symm
    cases answer with
    | overflow nonzero large =>
      have left : x.value ≠ 0 := left_ne_zero_of_mul nonzero
      have grows := hx.abs_lt_of_overflow (.overflow nonzero large)
      rw [abs_mul, lt_mul_iff_one_lt_right (abs_pos.2 left)] at grows
      exact .inl ⟨rfl, grows⟩
    | underflow nonzero small =>
      have left : x.value ≠ 0 := left_ne_zero_of_mul nonzero
      have shrinks := hx.abs_gt_of_underflow left (.underflow nonzero small)
      rw [abs_mul, mul_lt_iff_lt_one_right (abs_pos.2 left)] at shrinks
      exact .inr ⟨rfl, shrinks⟩

/-- With a quotient it is the other way round. -/
theorem div_eq_error {e : ArithmeticError} (hx : x.IsWorking) (hy : y.IsWorking)
    (divisor : y.value ≠ 0) (h : x.div y = .error e) :
    e = .overflow ∧ |y.value| < 1 ∨ e = .underflow ∧ 1 < |y.value| := by
  have answer := div_answers hx hy divisor
  unfold div reported at h
  cases quotient : working.divide x y with
  | ok => rw [quotient] at h; cases h
  | error c =>
    rw [quotient] at h answer
    obtain rfl := (Except.error.inj h).symm
    cases answer with
    | overflow nonzero large =>
      have dividend : x.value ≠ 0 := (div_ne_zero_iff.1 nonzero).1
      have grows := hx.abs_lt_of_overflow (.overflow nonzero large)
      rw [abs_div, lt_div_iff₀ (abs_pos.2 divisor),
        mul_lt_iff_lt_one_right (abs_pos.2 dividend)] at grows
      exact .inl ⟨rfl, grows⟩
    | underflow nonzero small =>
      have dividend : x.value ≠ 0 := (div_ne_zero_iff.1 nonzero).1
      have shrinks := hx.abs_gt_of_underflow dividend (.underflow nonzero small)
      rw [abs_div, div_lt_iff₀ (abs_pos.2 divisor),
        lt_mul_iff_one_lt_right (abs_pos.2 dividend)] at shrinks
      exact .inr ⟨rfl, shrinks⟩

/-! ## Neutral operands -/

/-- An operation whose exact result is a working value answers it. -/
theorem reported_of_answers {q : ℚ} {r : Except Condition Decimal}
    (answer : Answers working.digits q r) (hx : x.IsWorking) (same : q = x.value) :
    reported r = .ok x := by
  rw [same] at answer
  rw [answer.unique working_digits_pos hx.answers]
  rfl

/-- Zero is neutral, without a rounding. -/
theorem add_zero_eq (hx : x.IsWorking) : x.add zero = .ok x :=
  reported_of_answers (add_answers hx isWorking_zero) hx (by rw [value_zero, add_zero])

theorem zero_add_eq (hx : x.IsWorking) : zero.add x = .ok x :=
  reported_of_answers (add_answers isWorking_zero hx) hx (by rw [value_zero, zero_add])

theorem sub_zero_eq (hx : x.IsWorking) : x.sub zero = .ok x :=
  reported_of_answers (sub_answers hx isWorking_zero) hx (by rw [value_zero, sub_zero])

theorem zero_sub_eq (hx : x.IsWorking) : zero.sub x = .ok (-x) :=
  reported_of_answers (sub_answers isWorking_zero hx) hx.neg
    (by rw [value_zero, zero_sub, value_neg])

/-- Products with zero, and zero quotients, do not need a working value beside the zero. -/
theorem mul_zero_eq (x : Decimal) : x.mul zero = .ok zero :=
  reported_of_answers (Precision.multiply_answers x zero working_digits_pos) isWorking_zero
    (by rw [isWorking_zero.lift_eq, value_zero, mul_zero])

/-- Zero annihilates numbers that are no working values too. -/
theorem zero_mul_eq (x : Decimal) : zero.mul x = .ok zero :=
  reported_of_answers (Precision.multiply_answers zero x working_digits_pos) isWorking_zero
    (by rw [isWorking_zero.lift_eq, value_zero, zero_mul])

theorem zero_div_eq (nonzero : x.value ≠ 0) : zero.div x = .ok zero :=
  reported_of_answers (Precision.divide_answers working_digits_pos nonzero) isWorking_zero
    (by rw [isWorking_zero.lift_eq, value_zero, zero_div])

end Decimal

end Calculator
