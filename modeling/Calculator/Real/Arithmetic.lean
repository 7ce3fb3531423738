import Calculator.Error
import Calculator.Precision.Arithmetic
import Calculator.Precision.Digitwise
import Calculator.Precision.Numeral

/-!
# Real arithmetic

The calculator's arithmetic on real numbers: the primitives at the working
precision of 136 digits, with their conditions told as arithmetic errors, and the
operations on integral parts and digits that are built from them.
-/

namespace Calculator.Decimal

open Precision (working)

/-! ## Reading -/

/-- Reads a number; a comma is as good as a point. -/
def parse (text : String) : Except ArithmeticError Decimal :=
  reported (working.ofText (text.map fun c => if c = ',' then '.' else c))

/-! ## The four operations -/

def add (x y : Decimal) : Except ArithmeticError Decimal := reported (working.add x y)

def sub (x y : Decimal) : Except ArithmeticError Decimal := reported (working.subtract x y)

def mul (x y : Decimal) : Except ArithmeticError Decimal := reported (working.multiply x y)

def div (x y : Decimal) : Except ArithmeticError Decimal := reported (working.divide x y)

/-- The remainder of the integer quotient; it has the sign of `x`. -/
def rem (x y : Decimal) : Except ArithmeticError Decimal := reported (working.remainder x y)

/-- The integer quotient, cut off toward zero. -/
def divInteger (x y : Decimal) : Except ArithmeticError Decimal :=
  reported (working.divideInteger x y)

/-- `x · y + z` with a single rounding. -/
def fusedMultiplyAdd (x y z : Decimal) : Except ArithmeticError Decimal :=
  reported (working.fusedMultiplyAdd x y z)

def sqr (x : Decimal) : Except ArithmeticError Decimal := x.mul x

/-! ## Integral parts -/

/-- The nearest integer, a half going away from zero. -/
def round (x : Decimal) : Except ArithmeticError Decimal := reported (working.toIntegral x)

/-- The number to a count of significant digits, within the exponent bounds. -/
def roundToPrecision (x : Decimal) (digits : Nat) : Except ArithmeticError Decimal :=
  reported (Precision.round ⟨digits⟩ x)

/-- The integer part, cut off toward zero. -/
def integer (x : Decimal) : Except ArithmeticError Decimal := do
  let rounded ← x.round
  if x.isPositive && x < rounded then rounded.sub 1
  else if x.isNegative && rounded < x then rounded.add 1
  else return rounded

/-- The distance from the integer part, which is never negative. -/
def fractional (x : Decimal) : Except ArithmeticError Decimal :=
  return (← x.sub (← x.integer)).abs

/-- The greatest integer that is not above the number. -/
def floor (x : Decimal) : Except ArithmeticError Decimal := do
  let whole ← x.integer
  let rest ← x.sub whole
  if rest.isNegative then whole.sub 1 else return whole

/-- The least integer that is not below the number. -/
def ceil (x : Decimal) : Except ArithmeticError Decimal := do
  let whole ← x.integer
  let rest ← x.sub whole
  if rest.isPositive then whole.add 1 else return whole

/-- The fractional part is zero. -/
def hasNoFraction (x : Decimal) : Bool :=
  match x.fractional with
  | .ok f => f.isZero
  | .error _ => false

/-! ## Native integers -/

/-- The value of an integer of at most nineteen digits. -/
def toWhole (x : Decimal) : Except ArithmeticError Int := do
  if !(← x.fractional).isZero then throw .conversionImpossible
  let rounded := working.lift x
  if rounded.adjusted > 18 then throw .conversionImpossible
  return rounded.coefficient * tenPow rounded.exponent.toNat

/-- The value as a signed integer of thirty-two bits. -/
def toInt (x : Decimal) : Except ArithmeticError Int := do
  let n ← x.toWhole
  if -2147483648 ≤ n ∧ n ≤ 2147483647 then return n
  throw .conversionImpossible

/-- The value as an unsigned integer of thirty-two bits. -/
def toUInt (x : Decimal) : Except ArithmeticError Nat := do
  let n ← x.toWhole
  if 0 ≤ n ∧ n ≤ 4294967295 then return n.toNat
  throw .conversionImpossible

/-! ## Digits -/

/-- Refuses a number that has a fraction. -/
def requireIntegral (x : Decimal) : Except ArithmeticError Unit := do
  if !(← x.fractional).isZero then throw .fractionalOperand

/-- Exchanges the zeros and ones of an integer filled up to 136 digits. -/
def bitNot (x : Decimal) : Except ArithmeticError Decimal := do
  x.requireIntegral
  reported (working.invert x)

/-- Applies an operation to the digits of two integers. -/
def onDigits (op : Decimal → Decimal → Except Condition Decimal) (x y : Decimal) :
    Except ArithmeticError Decimal := do
  x.requireIntegral
  y.requireIntegral
  reported (op x y)

def bitOr (x y : Decimal) : Except ArithmeticError Decimal := onDigits working.or x y

def bitAnd (x y : Decimal) : Except ArithmeticError Decimal := onDigits working.and x y

def bitXor (x y : Decimal) : Except ArithmeticError Decimal := onDigits working.xor x y

/-- Shifts the digits to the left. -/
def shl (x places : Decimal) : Except ArithmeticError Decimal := onDigits working.shift x places

/-- Shifts the digits to the right. -/
def shr (x places : Decimal) : Except ArithmeticError Decimal := x.shl (-places)

end Calculator.Decimal
