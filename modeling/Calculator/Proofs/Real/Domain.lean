import Calculator.Proofs.Error
import Calculator.Proofs.Real.Closure

/-!
# Failures within the domain of a function

Inside its domain a function of real numbers fails only where its arithmetic does. Sums and roots of
squares stay where roots are defined, however they are rounded, so the inverse tangent has no
restriction and the inverse sine and cosine have that of their arguments only.
-/

namespace Calculator

open Precision (working)

/-- The answer is a value or the failure of an arithmetic operation. -/
abbrev FailsInArithmetic {α : Type} (r : Except MathError α) : Prop :=
  FailsWith (fun error => ∃ e, error = .arithmetic e) r

/-- What only computes fails in arithmetic only. -/
theorem failsInArithmetic_lift {α : Type} (r : Except ArithmeticError α) :
    FailsInArithmetic (liftM r : Except MathError α) := .mapError fun e _ => ⟨e, rfl⟩

/-- Arithmetic in front of a computation cannot fail otherwise, and is relied on if it succeeds. -/
theorem failsInArithmetic_bind {α β : Type} {r : Except ArithmeticError α}
    {f : α → Except MathError β} (rest : ∀ a, r = .ok a → FailsInArithmetic (f a)) :
    FailsInArithmetic (liftM r >>= f) := by
  refine (failsInArithmetic_lift r).bind fun a value => rest a ?_
  cases r with
  | ok => exact congrArg Except.ok (Except.ok.inj value)
  | error => cases value

/-- A failure in arithmetic does not complain of the argument. -/
theorem FailsInArithmetic.ne_invalidArgument {α : Type} {r : Except MathError α}
    (h : FailsInArithmetic r) (function : String) (reason : InvalidReason) :
    r ≠ .error (.invalidArgument function reason) := by
  intro failed
  obtain ⟨e, other⟩ := h _ failed
  cases other

namespace Decimal

variable {x y z : Decimal}

/-! ## Signs and sizes of rounded results -/

theorem value_lift (x : Decimal) : (working.lift x).value = nearest working.digits x.value :=
  value_roundTo x working_digits_pos

theorem isNegative_eq_false (h : 0 ≤ x.value) : x.isNegative = false := by
  rw [← Bool.not_eq_true, isNegative_iff_value]
  exact not_lt.2 h

theorem isPositive_eq_true (h : 0 < x.value) : x.isPositive = true := by
  have nonzero : x.coefficient ≠ 0 := mt value_eq_zero_iff.2 h.ne'
  have notNegative := isNegative_eq_false h.le
  rw [isNegative, decide_eq_false_iff_not] at notNegative
  rw [isPositive, decide_eq_true_iff]
  omega

/-- A rounded square is not negative. -/
theorem nonneg_of_sqr (h : x.sqr = .ok y) : 0 ≤ y.value := by
  unfold sqr mul at h
  have answer := Precision.multiply_answers x x working_digits_pos
  rw [reported_eq_ok.1 h] at answer
  rw [answer.value_eq]
  exact nearest_nonneg (mul_self_nonneg _)

/-- A rounded sum of numbers that are not negative is not negative. -/
theorem nonneg_of_add (hx : 0 ≤ x.value) (hy : 0 ≤ y.value) (h : x.add y = .ok z) :
    0 ≤ z.value := by
  have answer := Precision.add_answers x y working_digits_pos
  rw [reported_eq_ok.1 h] at answer
  rw [answer.value_eq, value_lift, value_lift]
  exact nearest_nonneg (add_nonneg (nearest_nonneg hx) (nearest_nonneg hy))

/-- Rounding does not take a square past one. -/
theorem le_one_of_sqr (small : |x.value| ≤ 1) (h : x.sqr = .ok y) : |y.value| ≤ 1 := by
  unfold sqr mul at h
  have answer := Precision.multiply_answers x x working_digits_pos
  rw [reported_eq_ok.1 h] at answer
  have lifted := abs_nearest_le_one working_digits_pos small
  rw [answer.value_eq, value_lift]
  refine abs_nearest_le_one working_digits_pos ?_
  rw [abs_mul]
  exact mul_le_one₀ lifted (abs_nonneg _) lifted

/-- One less what is at most one is not negative. -/
theorem nonneg_of_one_sub (small : |x.value| ≤ 1) (h : sub 1 x = .ok y) : 0 ≤ y.value := by
  have answer := Precision.subtract_answers 1 x working_digits_pos
  rw [reported_eq_ok.1 h] at answer
  have one : working.lift 1 = 1 := by decide
  have lifted := abs_nearest_le_one working_digits_pos small
  rw [answer.value_eq, one, value_one, value_lift]
  exact nearest_nonneg (by linarith [le_of_abs_le lifted])

/-! ## Roots and logarithms -/

/-- A root complains of negative numbers only. -/
theorem failsInArithmetic_sqrt (h : 0 ≤ x.value) : FailsInArithmetic x.sqrt := by
  unfold sqrt
  refine .guard (fun negative => ?_) fun _ => failsInArithmetic_lift _
  rw [isNegative_eq_false h] at negative
  cases negative

/-- A logarithm complains of numbers that are not positive only. -/
theorem failsInArithmetic_ln (h : 0 < x.value) : FailsInArithmetic x.ln := by
  unfold ln
  refine .guard (fun outside => ?_) fun _ => failsInArithmetic_lift _
  rw [isPositive_eq_true h] at outside
  cases outside

/-! ## Inverse trigonometric functions -/

/-- The radicand of a halving is positive, so the root does not complain. -/
theorem failsInArithmetic_halvedTangent (x : Decimal) : FailsInArithmetic x.halvedTangent := by
  unfold halvedTangent
  refine failsInArithmetic_bind fun square squared => failsInArithmetic_bind fun sum added => ?_
  have nonnegative : 0 ≤ sum.value := nonneg_of_add (nonneg_of_sqr squared) (by simp) added
  refine (failsInArithmetic_sqrt nonnegative).bind fun root _ => ?_
  exact failsInArithmetic_bind fun _ _ => failsInArithmetic_lift _

/-- Every number has an inverse tangent, as far as the arithmetic goes. -/
theorem failsInArithmetic_arctan (x : Decimal) : FailsInArithmetic x.arctan := by
  have halving (limit : ℕ) : ∀ x, FailsInArithmetic (arctanHalving limit x) := by
    induction limit with
    | zero => exact fun x => failsInArithmetic_lift _
    | succ limit ih =>
      intro x
      rw [arctanHalving]
      split
      · refine (failsInArithmetic_halvedTangent x).bind fun half _ => ?_
        exact (ih half).bind fun _ _ => failsInArithmetic_lift _
      · exact failsInArithmetic_lift _
  exact halving 8 x

/-- An inverse sine complains beyond one only. -/
theorem failsInArithmetic_arcsin (small : |x.value| ≤ 1) : FailsInArithmetic x.arcsin := by
  unfold arcsin
  split
  · exact failsInArithmetic_lift _
  · split
    · exact failsInArithmetic_bind fun _ _ => .ok _
    · split
      · rename_i large
        rw [lt_iff_value, value_one, value_abs] at large
        exact absurd small (not_le.2 large)
      · refine failsInArithmetic_bind fun square squared => ?_
        refine failsInArithmetic_bind fun rest subtracted => ?_
        have nonnegative := nonneg_of_one_sub (le_one_of_sqr small squared) subtracted
        refine (failsInArithmetic_sqrt nonnegative).bind fun cos _ => ?_
        exact failsInArithmetic_bind fun tangent _ => failsInArithmetic_arctan tangent

/-- An inverse cosine complains beyond one only. -/
theorem failsInArithmetic_arccos (small : |x.value| ≤ 1) : FailsInArithmetic x.arccos := by
  unfold arccos
  refine .guard (fun large => ?_) fun _ => ?_
  · rw [lt_iff_value, value_one, value_abs] at large
    exact absurd small (not_le.2 large)
  · refine failsInArithmetic_bind fun quarter _ => ?_
    exact (failsInArithmetic_arcsin small).bind fun _ _ => failsInArithmetic_lift _

end Decimal

end Calculator
