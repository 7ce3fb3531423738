import Calculator.Precision.Basic

/-!
# The rounded operations of arithmetic

Sum, difference, product and quotient to a precision, the integer quotient with
its remainder, and the nearest integer. The integer quotient and the remainder
are taken of the operands as they are; the other operations round their operands
first.
-/

namespace Calculator.Precision

/-- The rounded sum. -/
def add (p : Precision) (a b : Decimal) : Except Condition Decimal := p.round (p.lift a + p.lift b)

/-- The rounded difference. -/
def subtract (p : Precision) (a b : Decimal) : Except Condition Decimal :=
  p.round (p.lift a - p.lift b)

/-- The rounded product. -/
def multiply (p : Precision) (a b : Decimal) : Except Condition Decimal :=
  p.round (p.lift a * p.lift b)

/-- `a · b + c` with a single rounding; only the summand is rounded beforehand. This is meant for
products of no more digits than the precision: the sum of a longer product would first be rounded to
the digits of the product. -/
def fusedMultiplyAdd (p : Precision) (a b c : Decimal) : Except Condition Decimal :=
  p.round (a * b + p.lift c)

/-- The condition that dividing by zero raises. -/
def zeroDivisor (a : Decimal) : Condition :=
  if a.isZero then .divisionUndefined else .divisionByZero

/-- The quotient cut off after more digits than the precision has, as a coefficient and an exponent.
Whether the quotient reaches a half of the last place shows in the digits that are kept. -/
def quotientParts (p : Precision) (a b : Decimal) : Int × Int :=
  let shift := p.digits + b.digits + 1 - a.digits
  ((a.coefficient * tenPow shift).tdiv b.coefficient, a.exponent - b.exponent - shift)

/-- The rounded quotient. -/
def divide (p : Precision) (a b : Decimal) : Except Condition Decimal :=
  if b.isZero then .error (zeroDivisor a)
  else
    let (c, e) := p.quotientParts (p.lift a) (p.lift b)
    p.roundParts c e

/-- The integer quotient cut off toward zero, the coefficient of the remainder, and its exponent. -/
def quotientRemainder (p : Precision) (a b : Decimal) : Except Condition (Int × Int × Int) :=
  if b.isZero then .error (zeroDivisor a)
  else if a.isZero then .ok (0, 0, 0)
  else if a.adjusted - b.adjusted > p.digits then .error .divisionImpossible
  else
    let e := min a.exponent b.exponent
    let x := a.coefficientAt e
    let y := b.coefficientAt e
    let quotient := x.tdiv y
    if digitCount quotient.natAbs > p.digits then .error .divisionImpossible
    else .ok (quotient, x.tmod y, e)

/-- The integer part of the quotient, cut off toward zero. -/
def divideInteger (p : Precision) (a b : Decimal) : Except Condition Decimal := do
  let (quotient, _, _) ← p.quotientRemainder a b
  p.roundParts quotient 0

/-- What the integer quotient leaves; it has the sign of `a`. -/
def remainder (p : Precision) (a b : Decimal) : Except Condition Decimal := do
  let (_, remainder, e) ← p.quotientRemainder a b
  p.roundParts remainder e

/-- The nearest integer, a half going away from zero. -/
def toIntegral (p : Precision) (x : Decimal) : Except Condition Decimal :=
  if 0 ≤ x.exponent then .ok x
  else if x.adjusted < -1 then .ok .zero
  else
    let n := roundDiv x.coefficient.natAbs (tenPow (-x.exponent).toNat)
    p.roundParts (x.coefficient.sign * n) 0

end Calculator.Precision
