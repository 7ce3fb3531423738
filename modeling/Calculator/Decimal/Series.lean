import Calculator.Decimal.Basic

/-!
# Series in scaled integers

A real number is kept as the integer part of its product with `10 ^ scale`. The
two series of this module give the logarithm, the inverse tangent and the
exponential function in that form. Each term is cut off, so a sum of `n` terms is
off by at most a few times `n` units of the last place; the callers ask for some
forty places more than they keep.
-/

namespace Calculator.Series

/-- `power / 1 + power · ratio / 3 + power · ratio² / 5 + …` with `ratio` and `power` in units of
`unit`, until the power vanishes. -/
def oddReciprocals (unit ratio : Int) : Nat → Nat → Int → Int
  | 0, _, _ => 0
  | limit + 1, odd, power =>
    if power = 0 then 0
    else power.tdiv odd + oddReciprocals unit ratio limit (odd + 2) ((power * ratio).tdiv unit)

/-- The number of terms that is enough for an argument of at most a third. -/
def oddTerms (scale : Nat) : Nat := 2 * scale + 10

/-- The inverse hyperbolic tangent of `z / 10 ^ scale`, scaled; `z` is at most a third. -/
def artanh (scale : Nat) (z : Int) : Int :=
  let unit : Int := tenPow scale
  oddReciprocals unit ((z * z).tdiv unit) (oddTerms scale) 1 z

/-- The inverse tangent of `z / 10 ^ scale`, scaled; `z` is at most a third. -/
def arctan (scale : Nat) (z : Int) : Int :=
  let unit : Int := tenPow scale
  oddReciprocals unit (-(z * z).tdiv unit) (oddTerms scale) 1 z

/-- The natural logarithm of two, scaled: `2 artanh (1 / 3)`. -/
def lnTwo (scale : Nat) : Int := 2 * artanh scale (tenPow scale / 3)

/-- The natural logarithm of ten, scaled: `ln 8 + ln (5 / 4)`. -/
def lnTen (scale : Nat) : Int := 3 * lnTwo scale + 2 * artanh scale (tenPow scale / 9)

/-- The ratio of a circle's circumference to its diameter, scaled:
`16 arctan (1 / 5) - 4 arctan (1 / 239)`. -/
def pi (scale : Nat) : Int :=
  16 * arctan scale (tenPow scale / 5) - 4 * arctan scale (tenPow scale / 239)

/-- `term · (1 + x / n + x² / (n (n + 1)) + …)` with `x` and `term` in units of `unit`, until the
term vanishes. -/
def reciprocalFactorials (unit x : Int) : Nat → Nat → Int → Int
  | 0, _, _ => 0
  | limit + 1, n, term =>
    if term = 0 then 0
    else term + reciprocalFactorials unit x limit (n + 1) ((term * x).tdiv (unit * n))

/-- The exponential of `x / 10 ^ scale`, scaled, for an argument of at most two. -/
def exp (scale : Nat) (x : Int) : Int :=
  reciprocalFactorials (tenPow scale) x (2 * scale + 10) 1 (tenPow scale)

end Calculator.Series
