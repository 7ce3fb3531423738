import Calculator.Complex.Basic
import Calculator.Real.Trigonometry

/-!
# Modulus, logarithms and powers

A function of a real argument within the real domain is the function of real
numbers. Elsewhere the logarithm is that of the modulus with the angle as imaginary
part, and a power is the exponential of a product with a logarithm.
-/

namespace Calculator.Complex

/-- The modulus `√(re² + im²)`. -/
def abs (z : Complex) : Except MathError Decimal := do (← z.sqr).sqrt

/-- The angle of the number, above `-π` and up to `π`. -/
def arg (z : Complex) : Except MathError Decimal := do
  if z.im.isZero then return if z.re.isNegative then .pi else .zero
  let angle ← (← z.re.div (← z.abs)).arccos
  return if z.im.isNegative then -angle else angle

/-- The factorial, which real numbers alone have. -/
def factorial (z : Complex) : Except MathError Complex := do
  if !z.isReal then throw (.invalidArgument "fact" .factorial)
  return ofReal (← z.re.factorial)

/-- The number is real and not below zero. -/
def isNonnegative (z : Complex) : Bool := z.isReal && !z.re.isNegative

def ln (z : Complex) : Except MathError Complex := do
  if z.isNonnegative then return ofReal (← z.re.ln)
  let modulus ← (← z.abs).ln
  return ⟨modulus, ← z.arg⟩

def log2 (z : Complex) : Except MathError Complex := do
  if z.isNonnegative then return ofReal (← z.re.log2)
  let ln ← z.ln.mapError (.renamed "log2")
  ln.div (ofReal (← Decimal.ln 2))

def log10 (z : Complex) : Except MathError Complex := do
  if z.isNonnegative then return ofReal (← z.re.log10)
  let ln ← z.ln.mapError (.renamed "log10")
  ln.div (ofReal (← Decimal.ln 10))

def exp (z : Complex) : Except MathError Complex := do
  let magnitude ← z.re.exp
  if z.isReal then return ofReal magnitude
  let rotation : Complex := ⟨← z.im.cos, ← z.im.sin⟩
  rotation.scale magnitude

def pow (z exponent : Complex) : Except MathError Complex := do
  if z.isNonnegative && exponent.isNonnegative then return ofReal (← z.re.pow exponent.re)
  if z.isZero then return zero
  (← exponent.mul (← z.ln)).exp

/-- The square root is the power with exponent one half. -/
def sqrt (z : Complex) : Except MathError Complex := z.pow (ofReal (.ofParts 5 (-1)))

end Calculator.Complex
