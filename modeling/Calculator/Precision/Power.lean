import Calculator.Precision.Digitwise
import Calculator.Precision.Root
import Calculator.Precision.Transcendental

/-!
# Powers

An integral exponent of moderate size is applied by repeated squaring; any other
goes through logarithm and exponential. Both ways compute with ten more digits and
round once at the end.
-/

namespace Calculator

namespace Decimal

/-- The number is an integer: a reduced number has a fraction exactly when its exponent is
negative. -/
def isIntegral (x : Decimal) : Bool := decide (0 ≤ x.exponent)

/-- The number is an odd integer. -/
def isOdd (x : Decimal) : Bool := x.exponent == 0 && x.coefficient % 2 != 0

end Decimal

namespace Precision

/-- Multiplies `result` by `square ^ n`, one binary digit of `n < 2 ^ limit` at a time. The square
is taken only where a further digit needs it. -/
def multiplyPower (wide : Precision) :
    Nat → Nat → Decimal → Decimal → Except Condition Decimal
  | 0, _, result, _ => .ok result
  | limit + 1, n, result, square => do
    if n = 0 then return result
    let result ← if n % 2 = 1 then wide.multiply result square else pure result
    if n / 2 = 0 then return result
    wide.multiplyPower limit (n / 2) result (← wide.multiply square square)

/-- The rounded power with an integral exponent; a negative one takes the reciprocal at the end. -/
def integerPower (p : Precision) (base : Decimal) (n : Int) : Except Condition Decimal := do
  let wide := p.widened
  let square ← wide.round base
  let result ← wide.multiplyPower (n.natAbs.log2 + 1) n.natAbs 1 square
  if n < 0 then p.round (← wide.divide 1 result) else p.round result

/-- The exponent as an integer, where repeated squaring applies: it has at most nineteen digits and
lies within sixty-four bits. -/
def squaringExponent (p : Precision) (exponent : Decimal) : Except Condition (Option Int) := do
  if exponent.isIntegral && exponent.adjusted ≤ 18 then
    let n ← p.integerOf exponent
    return if -9223372036854775808 ≤ n ∧ n ≤ 9223372036854775807 then some n else none
  return none

/-- The rounded power. -/
def power (p : Precision) (base exponent : Decimal) : Except Condition Decimal := do
  if exponent.isZero then return 1
  if base.isZero then
    if exponent.isNegative then throw .divisionByZero
    return .zero
  if exponent = .ofParts 5 (-1) && !base.isNegative then
    p.sqrt base
  else match ← p.squaringExponent exponent with
  | some n => p.integerPower base n
  | none =>
    if base.isNegative && !exponent.isIntegral then throw .invalidOperation
    let wide := p.widened
    let result ← wide.exp (← wide.multiply (← wide.ln base.abs) exponent)
    p.round (if base.isNegative && exponent.isOdd then -result else result)

end Precision

end Calculator
