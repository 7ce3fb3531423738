import Calculator.Complex.Basic
import Calculator.Proofs.Real.Working

/-!
# Complex arithmetic on real numbers

With imaginary parts zero, the sum, the difference and the product of complex numbers are those of
the real parts. The quotient is not: it comes from the products of both operands with the divisor,
and these are rounded and checked before they are divided. It is the real quotient exactly when
both products stay within the exponent bounds and their rounding does not show.
-/

namespace Calculator

open Precision (working Answers)

namespace Complex

open Decimal

variable {a b x : Decimal}

/-- Real numbers are added as decimals. -/
theorem add_ofReal (a b : Decimal) : (ofReal a).add (ofReal b) = (a.add b).map ofReal := by
  have none : Decimal.zero.add .zero = .ok .zero := zero_add_eq isWorking_zero
  simp only [add, ofReal, none]
  cases a.add b <;> rfl

/-- Real numbers are subtracted as decimals. -/
theorem sub_ofReal (a b : Decimal) : (ofReal a).sub (ofReal b) = (a.sub b).map ofReal := by
  have none : Decimal.zero.sub .zero = .ok .zero := sub_zero_eq isWorking_zero
  simp only [sub, ofReal, none]
  cases a.sub b <;> rfl

/-- Real numbers are multiplied as decimals. -/
theorem mul_ofReal (a b : Decimal) : (ofReal a).mul (ofReal b) = (a.mul b).map ofReal := by
  have none : Decimal.zero.add .zero = .ok .zero := zero_add_eq isWorking_zero
  simp only [mul, ofReal, mul_zero_eq, zero_mul_eq]
  cases product : a.mul b with
  | error => rfl
  | ok m =>
    have same := sub_zero_eq (isWorking_of_mul product)
    simp only [bind, Except.bind, same, none]
    rfl

/-! ## The quotient -/

/-- The square of a real number is that of the decimal. -/
theorem sqr_ofReal (b : Decimal) : (ofReal b).sqr = b.mul b := by
  simp only [sqr, ofReal, Decimal.sqr, mul_zero_eq]
  cases square : b.mul b with
  | error => rfl
  | ok d => simp only [bind, Except.bind, add_zero_eq (isWorking_of_mul square)]

/-- A square that is answered is not zero unless the number is. -/
theorem square_ne_zero {d : Decimal} (hb : b.IsWorking) (nonzero : b.value ≠ 0)
    (square : b.mul b = .ok d) : d.value ≠ 0 := by
  have answer := mul_answers hb hb
  rw [reported_eq_ok.1 square] at answer
  rw [answer.value_eq]
  exact mt (nearest_eq_zero_iff working_digits_pos).1 (mul_ne_zero nonzero nonzero)

/-- The quotient of real numbers, as it is computed. -/
theorem div_ofReal (hb : b.IsWorking) (nonzero : b.value ≠ 0) :
    (ofReal a).div (ofReal b) =
      (do let d ← b.mul b; let n ← a.mul b; n.div d : Except ArithmeticError Decimal).map
        ofReal := by
  unfold div
  rw [sqr_ofReal]
  cases square : b.mul b with
  | error => rfl
  | ok d =>
    have divisor := square_ne_zero hb nonzero square
    have guard : d.isZero = false := by
      rw [← Bool.not_eq_true, isZero_iff_value]
      exact divisor
    have none : Decimal.zero.sub .zero = .ok .zero := sub_zero_eq isWorking_zero
    simp only [ofReal, mul_zero_eq, zero_mul_eq, bind, Except.bind, guard, Bool.false_eq_true,
      if_false, none, zero_div_eq divisor]
    cases product : a.mul b with
    | error => rfl
    | ok n =>
      simp only [add_zero_eq (isWorking_of_mul product)]
      cases n.div d <;> rfl

/-- A division by zero is refused. -/
theorem div_ofReal_zero (vanishes : b.value = 0) :
    (ofReal a).div (ofReal b) = .error .divisionByZero := by
  have divisor : b = .zero := isZero_iff.1 (isZero_iff_value.2 vanishes)
  have square : Decimal.zero.mul .zero = .ok .zero := mul_zero_eq .zero
  unfold div
  rw [sqr_ofReal, divisor, square]
  rfl

/-- A product with the divisor that is refused does not have the error of the quotient: one of them
grows when the other shrinks. -/
theorem div_ne_error_of_mul {e : ArithmeticError} (ha : a.IsWorking) (hx : x.IsWorking)
    (hb : b.IsWorking) (nonzero : b.value ≠ 0) (product : x.mul b = .error e) :
    a.div b ≠ .error e := by
  intro quotient
  rcases mul_eq_error hx hb product with ⟨rfl, above⟩ | ⟨rfl, below⟩
  · rcases div_eq_error ha hb nonzero quotient with ⟨-, below⟩ | ⟨same, -⟩
    · exact lt_asymm above below
    · cases same
  · rcases div_eq_error ha hb nonzero quotient with ⟨same, -⟩ | ⟨-, above⟩
    · cases same
    · exact lt_asymm below above

/-- A complex answer that is real determines the decimal one. -/
theorem map_ofReal_injective {x y : Except ArithmeticError Decimal}
    (h : x.map ofReal = y.map ofReal) : x = y := by
  cases x <;> cases y <;> simp_all [Except.map, ofReal]

/-- Complex division of real numbers is real division exactly when the divisor is zero or both
products with it can be represented and give the same quotient. -/
theorem div_ofReal_eq_iff (ha : a.IsWorking) (hb : b.IsWorking) :
    (ofReal a).div (ofReal b) = (a.div b).map ofReal ↔
      b.isZero = true ∨ ∃ n d, a.mul b = .ok n ∧ b.mul b = .ok d ∧ n.div d = a.div b := by
  by_cases vanishes : b.value = 0
  · rw [div_ofReal_zero vanishes, div_eq_of_value_zero vanishes]
    exact iff_of_true rfl (.inl (isZero_iff_value.2 vanishes))
  · rw [or_iff_right (mt isZero_iff_value.1 vanishes), div_ofReal hb vanishes]
    constructor
    · intro agree
      have same := map_ofReal_injective agree
      cases square : b.mul b with
      | error e =>
        rw [square] at same
        exact absurd same.symm (div_ne_error_of_mul ha hb hb vanishes square)
      | ok d =>
        cases product : a.mul b with
        | error e =>
          rw [square, product] at same
          exact absurd same.symm (div_ne_error_of_mul ha ha hb vanishes product)
        | ok n =>
          rw [square, product] at same
          exact ⟨n, d, rfl, rfl, same⟩
    · rintro ⟨n, d, product, square, same⟩
      rw [square, product, ← same]
      rfl

/-- Products that need no rounding do not show in the quotient. -/
theorem div_ofReal_of_exact {n d : Decimal} (ha : a.IsWorking) (hb : b.IsWorking)
    (product : a.mul b = .ok n) (square : b.mul b = .ok d)
    (exactProduct : n.value = a.value * b.value) (exactSquare : d.value = b.value * b.value) :
    (ofReal a).div (ofReal b) = (a.div b).map ofReal := by
  by_cases vanishes : b.value = 0
  · rw [div_ofReal_zero vanishes, div_eq_of_value_zero vanishes]
    rfl
  · refine (div_ofReal_eq_iff ha hb).2 (.inr ⟨n, d, product, square, ?_⟩)
    have divisor := square_ne_zero hb vanishes square
    have answer := div_answers (isWorking_of_mul product) (isWorking_of_mul square) divisor
    rw [exactProduct, exactSquare, mul_div_mul_right _ _ vanishes] at answer
    rw [Decimal.div, Decimal.div, answer.unique working_digits_pos (div_answers ha hb vanishes)]

/-- On real operands complex addition, subtraction and multiplication are the real operations,
with the same failures. Division is, exactly when the divisor is zero or the products of both
operands with it are within the exponent bounds and give the same rounded quotient. -/
theorem arithmetic_ofReal (ha : a.IsWorking) (hb : b.IsWorking) :
    (ofReal a).add (ofReal b) = (a.add b).map ofReal ∧
      (ofReal a).sub (ofReal b) = (a.sub b).map ofReal ∧
      (ofReal a).mul (ofReal b) = (a.mul b).map ofReal ∧
      ((ofReal a).div (ofReal b) = (a.div b).map ofReal ↔
        b.isZero = true ∨ ∃ n d, a.mul b = .ok n ∧ b.mul b = .ok d ∧ n.div d = a.div b) :=
  ⟨add_ofReal a b, sub_ofReal a b, mul_ofReal a b, div_ofReal_eq_iff ha hb⟩

/-- Seven by eight: the products are 56 and 64. -/
theorem seven_div_eight :
    (7 : Decimal).IsWorking ∧ (8 : Decimal).IsWorking ∧
      (ofReal 7).div (ofReal 8) = ((7 : Decimal).div 8).map ofReal := by
  refine ⟨by decide, by decide, ?_⟩
  have quotient := (@arithmetic_ofReal 7 8 (by decide) (by decide)).2.2.2
  exact quotient.2 (.inr ⟨56, 64, rfl, rfl, rfl⟩)

/-- The quotient of 1E+600000 by itself is one, and the calculator cannot form it: the square of the
divisor overflows. -/
theorem large_div_self :
    let x : Decimal := ⟨1, 600000, .inl (by decide)⟩
    x.IsWorking ∧ x.div x = .ok .one ∧ (ofReal x).div (ofReal x) = .error .overflow := by
  refine ⟨by decide, by decide +kernel, by decide +kernel⟩

end Complex

end Calculator
