import Calculator.Real.Power

/-!
# Trigonometric functions of a real number

Sine, cosine and inverse tangent are sums of their power series, term by term in
the rounded arithmetic of the calculator; the other functions are built from these
three. A term is computed from its own numerator and denominator, so the rounding
of one term does not carry into the next. The sums end when a term falls to
`10 ^ -136`.
-/

namespace Calculator.Decimal

open Precision (working)

/-! ## Constants -/

/-- The ratio of a circle's circumference to its diameter. -/
def pi : Decimal := .ofPartsRounded working.digits (Series.pi (working.digits + 40))
  (-(working.digits + 40))

/-- The base of the natural logarithms. -/
def e : Decimal :=
  let wide := working.widened
  let (c, e) := wide.expParts 1
  (ofPartsRounded wide.digits c e).roundTo working.digits

/-- A term of this size ends a sum. -/
def termThreshold : Decimal := .ofParts 1 (-136)

/-- A smaller result of sine or cosine is shown as zero. -/
def shownThreshold : Decimal := .ofParts 1 (-50)

/-- A quarter of a turn. -/
def halfPi : Except ArithmeticError Decimal := pi.div 2

/-! ## Sine and cosine -/

/-- Where an alternating sum stands: the parts of its last term, the factor that the next
denominator starts from, and whether the next term is subtracted. -/
structure AlternatingSum where
  sum : Decimal
  term : Decimal
  numerator : Decimal
  denominator : Decimal
  count : Decimal
  subtracting : Bool

namespace AlternatingSum

/-- The sum that holds its first term only. -/
def start (first count : Decimal) : AlternatingSum :=
  { sum := first, term := first, numerator := first, denominator := 1, count, subtracting := true }

/-- The last term no longer matters. -/
def isDone (s : AlternatingSum) : Bool := decide (s.term.abs ≤ termThreshold)

/-- Adds the next term: the numerator gains a factor `square`, the denominator the factors `count`
and `count + 1`. -/
def step (square : Decimal) (s : AlternatingSum) : Except ArithmeticError AlternatingSum := do
  let numerator ← s.numerator.mul square
  let denominator ← s.denominator.mul (← s.count.fusedMultiplyAdd s.count s.count)
  let count ← s.count.add 2
  let term ← numerator.div denominator
  let sum ← if s.subtracting then s.sum.sub term else s.sum.add term
  return { sum, term, numerator, denominator, count, subtracting := !s.subtracting }

/-- Adds terms until the last one no longer matters, at most `limit` of them. -/
def run (square : Decimal) : Nat → AlternatingSum → Except ArithmeticError AlternatingSum
  | 0, s => .ok s
  | limit + 1, s => do
    if s.isDone then return s
    run square limit (← s.step square)

/-- More terms than any sum takes. -/
def limit : Nat := 400

end AlternatingSum

/-- The sum `first - first · angle² / (count (count + 1)) + …`. -/
def alternatingSeries (first angle count : Decimal) : Except ArithmeticError Decimal := do
  let square ← angle.sqr
  return (← AlternatingSum.run square AlternatingSum.limit (.start first count)).sum

/-- A number that is shown as zero becomes zero. -/
def snapToZero (x : Decimal) : Except ArithmeticError Decimal := do
  let shown ← x.roundToPrecision 50
  return if shown.abs < shownThreshold then zero else x

/-- The angle less its whole turns. -/
def reduceAngle (x : Decimal) : Except ArithmeticError Decimal := do x.rem (← pi.mul 2)

/-- The sine of an angle in radians. -/
def sin (x : Decimal) : Except MathError Decimal := do
  let angle ← x.reduceAngle
  snapToZero (← alternatingSeries angle angle 2)

/-- The cosine of an angle in radians. -/
def cos (x : Decimal) : Except MathError Decimal := do
  let angle ← x.reduceAngle
  snapToZero (← alternatingSeries 1 angle 1)

/-- The tangent of an angle in radians; it has none where the cosine is zero. -/
def tan (x : Decimal) : Except MathError Decimal := do
  let angle ← x.reduceAngle
  let cos ← angle.cos
  if cos.isZero then throw (.invalidArgument "tan" .tangent)
  (← angle.sin).div cos

/-- The cotangent of an angle in radians; it has none where the sine is zero. -/
def cot (x : Decimal) : Except MathError Decimal := do
  let angle ← x.reduceAngle
  let sin ← angle.sin
  if sin.isZero then throw (.invalidArgument "cot" .cotangent)
  (← angle.cos).div sin

/-! ## Inverse functions -/

/-- Where a sum of powers over odd numbers stands. -/
structure OddSum where
  sum : Decimal
  term : Decimal
  numerator : Decimal
  denominator : Decimal

namespace OddSum

/-- The sum that holds its first term only. -/
def start (x : Decimal) : OddSum := { sum := x, term := x, numerator := x, denominator := 1 }

/-- The last term no longer matters. -/
def isDone (s : OddSum) : Bool := decide (s.term.abs ≤ termThreshold)

/-- Adds the next term: the numerator gains a factor, the denominator grows by two. -/
def step (factor : Decimal) (s : OddSum) : Except ArithmeticError OddSum := do
  let numerator ← s.numerator.mul factor
  let denominator ← s.denominator.add 2
  let term ← numerator.div denominator
  let sum ← s.sum.add term
  return { sum, term, numerator, denominator }

/-- Adds terms until the last one no longer matters, at most `limit` of them. -/
def run (factor : Decimal) : Nat → OddSum → Except ArithmeticError OddSum
  | 0, s => .ok s
  | limit + 1, s => do
    if s.isDone then return s
    run factor limit (← s.step factor)

/-- More terms than any sum takes. -/
def limit : Nat := 1000

end OddSum

/-- The inverse tangent of a number of at most one half, as the sum `x - x³ / 3 + x⁵ / 5 - …`. -/
def arctanSeries (x : Decimal) : Except ArithmeticError Decimal := do
  let square ← x.sqr
  return (← OddSum.run (-square) OddSum.limit (.start x)).sum

/-- The tangent of half the angle whose tangent is `x`. -/
def halvedTangent (x : Decimal) : Except MathError Decimal := do
  let root ← (← (← x.sqr).add 1).sqrt
  x.div (← root.add 1)

/-- The inverse tangent, with at most `limit` halvings of the angle before the series is summed. -/
def arctanHalving : Nat → Decimal → Except MathError Decimal
  | 0, x => do x.arctanSeries
  | limit + 1, x => do
    if .ofParts 5 (-1) < x.abs then
      (← arctanHalving limit (← x.halvedTangent)).mul 2
    else x.arctanSeries

/-- The inverse tangent, in radians. -/
def arctan (x : Decimal) : Except MathError Decimal := arctanHalving 8 x

/-- The inverse sine, in radians. -/
def arcsin (x : Decimal) : Except MathError Decimal := do
  if x = 1 then halfPi
  else if x = -1 then return -(← halfPi)
  else if 1 < x.abs then throw (.invalidArgument "asin" .arcsine)
  else
    let cos ← (← sub 1 (← x.sqr)).sqrt
    (← x.div cos).arctan

/-- The inverse cosine, in radians. -/
def arccos (x : Decimal) : Except MathError Decimal := do
  if 1 < x.abs then throw (.invalidArgument "acos" .arccosine)
  (← halfPi).sub (← x.arcsin)

/-- The inverse cotangent, in radians. -/
def arccot (x : Decimal) : Except MathError Decimal := do (← halfPi).sub (← x.arctan)

end Calculator.Decimal
