import Calculator.Real.Arithmetic

/-!
# Complex numbers

A complex number has a real and an imaginary part. Its arithmetic is the usual one
in terms of the rounded arithmetic of the parts, operation by operation: a product
is two rounded products and a rounded sum for each part.
-/

namespace Calculator

/-- The complex number `re + im · i`. -/
structure Complex where
  re : Decimal
  im : Decimal
  deriving DecidableEq

namespace Complex

/-- The complex number with imaginary part zero. -/
def ofReal (x : Decimal) : Complex := ⟨x, .zero⟩

def zero : Complex := ⟨.zero, .zero⟩

def one : Complex := ⟨.one, .zero⟩

/-- The imaginary unit. -/
def i : Complex := ⟨.zero, .one⟩

/-- The imaginary part is zero. -/
def isReal (z : Complex) : Bool := z.im.isZero

/-- Both parts are zero. -/
def isZero (z : Complex) : Bool := z.re.isZero && z.im.isZero

/-- The number with both signs changed. -/
def neg (z : Complex) : Complex := ⟨-z.re, -z.im⟩

instance : Neg Complex := ⟨neg⟩

/-! ## Arithmetic -/

def add (z w : Complex) : Except ArithmeticError Complex :=
  return ⟨← z.re.add w.re, ← z.im.add w.im⟩

def sub (z w : Complex) : Except ArithmeticError Complex :=
  return ⟨← z.re.sub w.re, ← z.im.sub w.im⟩

def mul (z w : Complex) : Except ArithmeticError Complex := do
  let re ← (← z.re.mul w.re).sub (← z.im.mul w.im)
  let im ← (← z.re.mul w.im).add (← z.im.mul w.re)
  return ⟨re, im⟩

/-- The square of the modulus, `re² + im²`. -/
def sqr (z : Complex) : Except ArithmeticError Decimal := do
  (← z.re.sqr).add (← z.im.sqr)

/-- The quotient, from the product with the conjugate of the divisor. -/
def div (z w : Complex) : Except ArithmeticError Complex := do
  let denominator ← w.sqr
  if denominator.isZero then throw .divisionByZero
  let re ← (← z.re.mul w.re).add (← z.im.mul w.im)
  let im ← (← z.im.mul w.re).sub (← z.re.mul w.im)
  return ⟨← re.div denominator, ← im.div denominator⟩

/-- The product with a real number. -/
def scale (z : Complex) (factor : Decimal) : Except ArithmeticError Complex :=
  return ⟨← z.re.mul factor, ← z.im.mul factor⟩

/-- Half of the number. -/
def halve (z : Complex) : Except ArithmeticError Complex := z.div (ofReal 2)

end Complex

end Calculator
