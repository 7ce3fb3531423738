import Calculator.Decimal.Basic

/-!
# Rounding to a precision

A `Precision` is a number of significant digits. A primitive takes its operands
at that precision, forms the exact result, rounds it once with halves going away
from zero, and refuses a result whose leading digit lies beyond the exponent
bounds. What stops a primitive is a `Condition`.
-/

namespace Calculator

/-- What stops a primitive operation. -/
inductive Condition where
  | overflow
  | underflow
  | divisionByZero
  | divisionUndefined
  | divisionImpossible
  | invalidOperation
  | conversionSyntax
  /-- A row of digits is too wide to be filled up; this breaks the computation off. -/
  | widthExceeded
  deriving DecidableEq

/-- The number of significant digits that a result is rounded to; none stand for no limit. It is
meant to be below `2 ^ 63`, so that it and the exponents counted with it fit a signed machine word. -/
structure Precision where
  digits : Nat
  deriving DecidableEq

namespace Precision

/-- The largest exponent of a leading digit, and the negative of the smallest. -/
def exponentBound : Int := 999999

/-- The precision of every intermediate computation of the calculator. -/
def working : Precision := ⟨136⟩

/-- Ten more digits, which the composite primitives compute with. -/
def widened (p : Precision) : Precision := ⟨p.digits + 10⟩

/-- The operand as a primitive of this precision sees it. -/
def lift (p : Precision) (x : Decimal) : Decimal := x.roundTo p.digits

/-- Refuses a number whose leading digit lies beyond the bounds. -/
def check (x : Decimal) : Except Condition Decimal :=
  if x.isZero then .ok x
  else if x.adjusted > exponentBound then .error .overflow
  else if x.adjusted < -exponentBound then .error .underflow
  else .ok x

/-- Rounds an exact result and checks its size. -/
def round (p : Precision) (x : Decimal) : Except Condition Decimal := check (p.lift x)

/-- Rounds `c · 10 ^ e` and checks its size. -/
def roundParts (p : Precision) (c e : Int) : Except Condition Decimal :=
  check (.ofPartsRounded p.digits c e)

end Precision

end Calculator
