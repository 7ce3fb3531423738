import Calculator.Precision.Power
import Calculator.Real.Arithmetic

/-!
# Powers, logarithms and factorials

The functions check their domain first, so that what a primitive refuses is a
result out of bounds and not an argument.
-/

namespace Calculator.Decimal

open Precision (working)

/-! ## Factorials -/

/-- The number of factors that are multiplied exactly before they join a factorial. -/
def factorialGroup : Nat := 10

/-- The product of the integers from `first` to `last`. -/
def groupProduct (first last : Nat) : Nat :=
  (List.range' first (last + 1 - first)).foldl (· * ·) 1

/-- Multiplies `result` by the integers from `first` to `n`, one group at a time, for at most
`limit` groups. -/
def multiplyGroups (n : Nat) : Nat → Nat → Decimal → Except ArithmeticError Decimal
  | 0, _, result => .ok result
  | limit + 1, first, result => do
    if n < first then return result
    let last := Nat.min (first + factorialGroup - 1) n
    multiplyGroups n limit (last + 1) (← result.mul (ofInt (groupProduct first last)))

/-- The factorial of an integer that is not negative. -/
def factorial (x : Decimal) : Except MathError Decimal := do
  if x.isZero then return 1
  if x.isNegative || !(← x.fractional).isZero then
    throw (.invalidArgument "fact" .factorial)
  let n ← x.toUInt
  multiplyGroups n (n / factorialGroup + 1) 1 1

/-! ## Powers and roots -/

def pow (x exponent : Decimal) : Except MathError Decimal := do
  if x.isZero && exponent.isZero then return 1
  if !x.isPositive && exponent.isNegative then throw (.invalidArgument "pow" .power)
  reported (working.power x exponent)

def sqrt (x : Decimal) : Except MathError Decimal := do
  if x.isNegative then throw (.invalidArgument "sqrt" .negative)
  reported (working.sqrt x)

/-! ## Logarithms and the exponential function -/

def ln (x : Decimal) : Except MathError Decimal := do
  if !x.isPositive then throw (.invalidArgument "ln" .zeroOrNegative)
  reported (working.ln x)

def log10 (x : Decimal) : Except MathError Decimal := do
  if !x.isPositive then throw (.invalidArgument "log10" .zeroOrNegative)
  reported (working.log10 x)

/-- The logarithm to the base two is a quotient of natural logarithms. -/
def log2 (x : Decimal) : Except MathError Decimal := do
  let ln ← x.ln.mapError (.renamed "log2")
  ln.div (← Decimal.ln 2)

def exp (x : Decimal) : Except MathError Decimal := do reported (working.exp x)

end Calculator.Decimal
