import Calculator.Expression.Evaluation
import Calculator.Proofs.Complex.RealOperands
import Calculator.Proofs.Real.SquareRoot

/-!
# The modulus of a real number

The modulus is the root of a rounded sum of rounded squares. For a real number it is the absolute
value exactly when the square is within the exponent bounds and is not moved too far by its rounding,
which the leading part of the number decides as a rule.
-/

namespace Calculator

namespace Complex

open Decimal

variable {x square : Decimal}

/-- The modulus of a real number is the root of its square. -/
theorem abs_ofReal (x : Decimal) :
    (ofReal x).abs = (do (← x.mul x).sqrt : Except MathError Decimal) := by
  rw [abs, sqr_ofReal]

/-- The modulus of a real number whose square is answered. -/
theorem abs_ofReal_of_mul (h : x.mul x = .ok square) : (ofReal x).abs = square.sqrt := by
  rw [abs_ofReal, h]
  rfl

theorem abs_ofReal_zero (vanishes : x.isZero = true) : (ofReal x).abs = .ok x.abs := by
  obtain rfl := isZero_iff.1 vanishes
  decide

/-- The built-in function answers the modulus as a complex number. -/
theorem find_abs : ∃ f, BuiltIn.find "abs" 1 = .ok f ∧
    ∀ unit z, f.apply unit [z] = liftM (BuiltIn.modulus z) :=
  ⟨_, rfl, fun _ _ => rfl⟩

/-- The function of the calculator answers what the modulus is. -/
theorem liftM_modulus_eq_iff (z : Complex) (y : Decimal) :
    (liftM (BuiltIn.modulus z) : Except EvalError Complex) = .ok (ofReal y) ↔ z.abs = .ok y := by
  unfold BuiltIn.modulus
  cases z.abs with
  | error => exact ⟨nofun, nofun⟩
  | ok m =>
    constructor
    · intro h
      exact congrArg Except.ok (congrArg Complex.re (Except.ok.inj h))
    · rintro ⟨⟩
      rfl

/-- A square that is refused leaves no modulus, and another one leaves its root. -/
theorem abs_ofReal_eq_abs_iff (hx : x.IsWorking) :
    (ofReal x).abs = .ok x.abs ↔ x.isZero = true ∨ ∃ square, x.mul x = .ok square ∧
      (|x.value| - (1 / 2 + 5 / 10 ^ 11) * x.lastPlace) ^ 2 ≤ square.value ∧
        square.value < (|x.value| + (1 / 2 - 5 / 10 ^ 11) * x.lastPlace) ^ 2 := by
  by_cases vanishes : x.isZero = true
  · exact iff_of_true (abs_ofReal_zero vanishes) (.inl vanishes)
  · have nonzero := mt isZero_iff_value.2 vanishes
    rw [or_iff_right vanishes]
    cases h : x.mul x with
    | error e =>
      rw [abs_ofReal, h]
      exact ⟨nofun, nofun⟩
    | ok square =>
      rw [abs_ofReal_of_mul h, sqrt_of_mul_eq_abs_iff hx nonzero h]
      constructor
      · exact fun between => ⟨square, rfl, between⟩
      · rintro ⟨_, ⟨⟩, between⟩
        exact between

/-- The root gives the size back if the square is exact, or if the leading digits leave room for its
rounding. -/
theorem abs_ofReal_of_favourable (hx : x.IsWorking) (h : x.mul x = .ok square)
    (favourable : square.value = x.value ^ 2 ∨ x.value ^ 2 < 10 ^ (2 * x.adjusted + 1) ∨
      51 / 10 * 10 ^ x.adjusted ≤ |x.value|) : (ofReal x).abs = .ok x.abs := by
  by_cases vanishes : x.isZero = true
  · exact abs_ofReal_zero vanishes
  · rw [abs_ofReal_of_mul h]
    exact sqrt_of_mul_eq_abs hx (mt isZero_iff_value.2 vanishes) h favourable

/-- The modulus of a real number, and the built-in function that answers it, is the absolute value
exactly when the number is zero, or its square is within the exponent bounds and rounded to a number
between the squares of two halves around it. So it is for every number whose square is within the
bounds if the square is exact, or the leading part of the number is below the root of ten or from 5.1
on. -/
theorem abs_ofReal_eq_iff (x : Decimal) (hx : x.IsWorking) :
    ((ofReal x).abs = .ok x.abs ↔ x.isZero = true ∨ ∃ square, x.mul x = .ok square ∧
      (|x.value| - (1 / 2 + 5 / 10 ^ 11) * x.lastPlace) ^ 2 ≤ square.value ∧
        square.value < (|x.value| + (1 / 2 - 5 / 10 ^ 11) * x.lastPlace) ^ 2) ∧
    (∀ square, x.mul x = .ok square →
      (square.value = x.value ^ 2 ∨ x.value ^ 2 < 10 ^ (2 * x.adjusted + 1) ∨
        51 / 10 * 10 ^ x.adjusted ≤ |x.value|) → (ofReal x).abs = .ok x.abs) ∧
    ∃ f, BuiltIn.find "abs" 1 = .ok f ∧ ∀ unit,
      (f.apply unit [ofReal x] = .ok (ofReal x.abs) ↔ (ofReal x).abs = .ok x.abs) := by
  obtain ⟨f, found, applied⟩ := find_abs
  refine ⟨abs_ofReal_eq_abs_iff hx, fun square => abs_ofReal_of_favourable hx, f, found, ?_⟩
  intro unit
  rw [applied, liftM_modulus_eq_iff]

/-- Minus twelve has the exact square 144. -/
theorem abs_minus_twelve :
    (-12 : Decimal).IsWorking ∧ (ofReal (-12)).abs = .ok 12 := by
  have working : (-12 : Decimal).IsWorking := by decide
  have square : (-12 : Decimal).mul (-12) = .ok 144 := by decide
  have noRounding : (144 : Decimal).value = (-12 : Decimal).value ^ 2 := by
    rw [pow_two, ← value_mul]
    exact congrArg value (by decide)
  exact ⟨working, (abs_ofReal_eq_iff (-12) working).2.1 144 square (.inl noRounding)⟩

/-- The square of 1E+600000 overflows, and that of 1E-600000 underflows; the square of 4.00…02 with
135 digits behind the point is rounded up so far that its root is 4.00…03. -/
theorem abs_ofReal_ne :
    let large : Decimal := ⟨1, 600000, .inl (by decide)⟩
    let small : Decimal := ⟨1, -600000, .inl (by decide)⟩
    let x : Decimal := ⟨4 * 10 ^ 135 + 2, -135, .inl (by decide)⟩
    large.IsWorking ∧ (ofReal large).abs = .error (.arithmetic .overflow) ∧
      small.IsWorking ∧ (ofReal small).abs = .error (.arithmetic .underflow) ∧
      x.IsWorking ∧ (ofReal x).abs = .ok ⟨4 * 10 ^ 135 + 3, -135, .inl (by decide)⟩ := by
  refine ⟨?_, ?_, ?_, ?_, ?_, ?_⟩
  all_goals decide +kernel

end Complex

end Calculator
