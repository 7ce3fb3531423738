import Calculator.Complex.Power

/-!
# Trigonometric and hyperbolic functions

Off the real line the trigonometric functions are combinations of `exp (iz)` and
`exp (-iz)`, the hyperbolic ones of `exp z` and `exp (-z)`, and the inverses are
logarithms of algebraic expressions.
-/

namespace Calculator.Complex

/-! ## Trigonometric functions -/

/-- The pair `exp (iz)` and `exp (-iz)`. -/
def eulerPair (z : Complex) : Except MathError (Complex × Complex) := do
  let iz ← i.mul z
  return (← iz.exp, ← (-iz).exp)

def sin (z : Complex) : Except MathError Complex := do
  if z.isReal then return ofReal (← z.re.sin)
  let (positive, negative) ← z.eulerPair
  (← positive.sub negative).div ⟨.zero, 2⟩

def cos (z : Complex) : Except MathError Complex := do
  if z.isReal then return ofReal (← z.re.cos)
  let (positive, negative) ← z.eulerPair
  (← positive.add negative).halve

def tan (z : Complex) : Except MathError Complex := do
  if z.isReal then return ofReal (← z.re.tan)
  let cos ← z.cos
  if cos.isZero then throw (.invalidArgument "tan" .tangent)
  (← z.sin).div cos

def cot (z : Complex) : Except MathError Complex := do
  if z.isReal then return ofReal (← z.re.cot)
  let sin ← z.sin
  if sin.isZero then throw (.invalidArgument "cot" .cotangent)
  (← z.cos).div sin

/-! ## Their inverses -/

/-- The number is real and lies between minus one and one. -/
def inUnitInterval (z : Complex) : Bool := z.isReal && z.re.abs ≤ 1

/-- The cosine that belongs to the sine `z`, `√(1 - z²)`. -/
def cosineCompanion (z : Complex) : Except MathError Complex := do
  (← one.sub (← z.mul z)).sqrt

/-- The number `-i`. -/
def minusI : Complex := ⟨.zero, -1⟩

def arcsin (z : Complex) : Except MathError Complex := do
  if z.inUnitInterval then return ofReal (← z.re.arcsin)
  let inner ← (← i.mul z).add (← z.cosineCompanion)
  minusI.mul (← inner.ln)

def arccos (z : Complex) : Except MathError Complex := do
  if z.inUnitInterval then return ofReal (← z.re.arccos)
  let inner ← z.add (← i.mul (← z.cosineCompanion))
  minusI.mul (← inner.ln)

def arctan (z : Complex) : Except MathError Complex := do
  if z.isReal then return ofReal (← z.re.arctan)
  let ratio ← (← i.add z).div (← i.sub z)
  (← i.halve).mul (← ratio.ln)

def arccot (z : Complex) : Except MathError Complex := do
  if z.isReal then return ofReal (← z.re.arccot)
  let ratio ← (← z.sub i).div (← z.add i)
  (← i.halve).mul (← ratio.ln)

/-! ## Hyperbolic functions -/

/-- The pair `exp z` and `exp (-z)`. -/
def expPair (z : Complex) : Except MathError (Complex × Complex) := do
  return (← z.exp, ← (-z).exp)

def sinh (z : Complex) : Except MathError Complex := do
  let (positive, negative) ← z.expPair
  (← positive.sub negative).halve

def cosh (z : Complex) : Except MathError Complex := do
  let (positive, negative) ← z.expPair
  (← positive.add negative).halve

def tanh (z : Complex) : Except MathError Complex := do
  let cosh ← z.cosh
  if cosh.isZero then throw (.invalidArgument "tanh" .hyperbolicTangent)
  (← z.sinh).div cosh

def coth (z : Complex) : Except MathError Complex := do
  let sinh ← z.sinh
  if sinh.isZero then throw (.invalidArgument "coth" .hyperbolicCotangent)
  (← z.cosh).div sinh

/-! ## Their inverses -/

/-- The logarithm of `z + √(z² + 1)`. -/
def arcsinh (z : Complex) : Except MathError Complex := do
  let root ← (← (← z.mul z).add one).sqrt
  (← z.add root).ln

/-- The logarithm of `z + √(z² - 1)`. -/
def arccosh (z : Complex) : Except MathError Complex := do
  let root ← (← (← z.mul z).sub one).sqrt
  (← z.add root).ln

/-- Half of the logarithm of `(1 + z) / (1 - z)`. -/
def arctanh (z : Complex) : Except MathError Complex := do
  let ratio ← (← one.add z).div (← one.sub z)
  (← ratio.ln).halve

/-- Half of the logarithm of `(z + 1) / (z - 1)`. -/
def arccoth (z : Complex) : Except MathError Complex := do
  let ratio ← (← z.add one).div (← z.sub one)
  (← ratio.ln).halve

end Calculator.Complex
