import Calculator.Decimal.Series
import Calculator.Precision.Arithmetic

/-!
# Logarithms and the exponential function

Both functions reduce their argument by the logarithms of two and ten, sum a
series in scaled integers with forty guard places, and round to ten digits more
than the precision before they round to the precision itself.
-/

namespace Calculator.Precision

/-- Places that the series carry beyond the digits they are asked for. -/
def guardPlaces : Nat := 40

/-! ## Logarithms -/

/-- The halvings that bring a number of `[1, 10)`, in units of `unit`, down to four thirds. -/
def halvings (unit n : Int) : Nat :=
  if 3 * n ≤ 4 * unit then 0
  else if 3 * n ≤ 8 * unit then 1
  else if 3 * n ≤ 16 * unit then 2
  else 3

/-- The logarithm of `n / m`, scaled: it is that of `(1 + z) / (1 - z)` for the fraction
`z = (n - m) / (n + m)`. -/
def lnRatio (scale : Nat) (n m : Int) : Int :=
  2 * Series.artanh scale (((n - m) * tenPow scale).tdiv (n + m))

/-- The natural logarithm of a positive number, as a coefficient with more digits than the
precision, and an exponent. Near one the scale grows with the zeros after the point of `x - 1`;
elsewhere `x = 10 ^ k · 2 ^ j · y` with `y` near one. -/
def lnParts (p : Precision) (x : Decimal) : Int × Int :=
  let base := p.digits + guardPlaces
  if 2 ≤ 3 * x ∧ 3 * x ≤ 4 then
    let scale := base + (-(x - 1).adjusted).toNat
    (lnRatio scale (x.coefficient * tenPow (x.exponent + scale).toNat) (tenPow scale), -scale)
  else
    let unit : Int := tenPow base
    let n := x.coefficient * tenPow (base + 1 - x.digits)
    let j := halvings unit n
    let near := lnRatio base n (Nat.pow 2 j * unit)
    (x.adjusted * Series.lnTen base + j * Series.lnTwo base + near, -base)

/-- The rounded natural logarithm. -/
def ln (p : Precision) (x : Decimal) : Except Condition Decimal :=
  if !x.isPositive then .error .invalidOperation
  else if x = 1 then .ok .zero
  else
    let wide := p.widened
    let (c, e) := wide.lnParts (wide.lift x)
    p.round (.ofPartsRounded wide.digits c e)

/-- The rounded logarithm to the base ten, exact for a power of ten. -/
def log10 (p : Precision) (x : Decimal) : Except Condition Decimal := do
  if !x.isPositive then throw .invalidOperation
  let rounded := p.lift x
  if rounded.coefficient = 1 then p.round (.ofInt rounded.exponent)
  else
    let wide := p.widened
    p.round (← wide.divide (← wide.ln x) (← wide.ln 10))

/-! ## The exponential function -/

/-- The integer part of `x · 10 ^ scale`, cut off toward zero. -/
def scaled (scale : Nat) (x : Decimal) : Int :=
  if 0 ≤ x.exponent + scale then x.coefficient * tenPow (x.exponent + scale).toNat
  else if x.adjusted + scale < 0 then 0
  else x.coefficient.tdiv (tenPow (-(x.exponent + scale)).toNat)

/-- The exponential as a coefficient with more digits than the precision, and an exponent: for
`x = k · ln 10 + r` with `r` near zero it is `exp r · 10 ^ k`. -/
def expParts (p : Precision) (x : Decimal) : Int × Int :=
  let scale := p.digits + guardPlaces
  let n := scaled scale x
  let ten := Series.lnTen scale
  let k := (2 * n + ten).fdiv (2 * ten)
  (Series.exp scale (n - k * ten), k - scale)

/-- The rounded exponential; an argument of ten million or more is beyond the bounds either way. -/
def exp (p : Precision) (x : Decimal) : Except Condition Decimal :=
  if x.isZero then .ok 1
  else if x.adjusted ≥ 7 then .error (if x.isNegative then .underflow else .overflow)
  else
    let wide := p.widened
    let (c, e) := wide.expParts (wide.lift x)
    p.round (.ofPartsRounded wide.digits c e)

end Calculator.Precision
