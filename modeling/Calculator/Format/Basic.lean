import Calculator.Decimal.Basic

/-!
# Number formats

How numbers are shown: the digits kept, the style, the spelling of the exponent and
of the separator, and the letter of the imaginary unit.
-/

namespace Calculator

/-- When a number is shown with an exponent. -/
inductive NumberStyle where
  /-- Plain digits unless the magnitude does not fit the precision. -/
  | general
  /-- An exponent for anything that is not a plain fraction. -/
  | scientific
  /-- As scientific, with exponents that are multiples of three. -/
  | engineering
  deriving DecidableEq

/-- The case of the letter before an exponent. -/
inductive ExponentCase where
  | upper
  | lower
  deriving DecidableEq

/-- The letter before an exponent. -/
def ExponentCase.letter : ExponentCase → Char
  | .upper => 'E'
  | .lower => 'e'

/-- What divides the integral digits from the others. -/
inductive Separator where
  | point
  | comma
  deriving DecidableEq

/-- The separator as it is written. -/
def Separator.glyph : Separator → Char
  | .point => '.'
  | .comma => ','

/-- The letter that stands for the imaginary unit. -/
inductive ImaginaryUnit where
  | i
  | j
  deriving DecidableEq

/-- The imaginary unit as it is written. -/
def ImaginaryUnit.glyph : ImaginaryUnit → Char
  | .i => 'i'
  | .j => 'j'

/-- How a real number is shown. The precision may be any number; what counts is `digits`. -/
structure NumberFormat where
  precision : Nat
  style : NumberStyle
  exponentCase : ExponentCase
  separator : Separator
  deriving DecidableEq

namespace NumberFormat

/-- The most digits that are ever shown. -/
def maxPrecision : Nat := 50

/-- The digits that a new session shows. -/
def defaultPrecision : Nat := 25

/-- A precision brought into the range from one to fifty. -/
def clamp (precision : Nat) : Nat := max 1 (min precision maxPrecision)

/-- The general style with an upper-case exponent and a point. -/
def ofPrecision (precision : Nat) : NumberFormat :=
  { precision := clamp precision, style := .general, exponentCase := .upper, separator := .point }

/-- The format that shows all fifty digits. -/
def full : NumberFormat := ofPrecision maxPrecision

/-- The digits that are shown, from one to fifty. -/
def digits (f : NumberFormat) : Nat := clamp f.precision

theorem one_le_digits (f : NumberFormat) : 1 ≤ f.digits := by
  simp only [digits, clamp]; omega

theorem digits_le (f : NumberFormat) : f.digits ≤ 50 := by
  simp only [digits, clamp, maxPrecision]; omega

end NumberFormat

/-- How a complex number is shown. -/
structure ComplexFormat where
  number : NumberFormat
  imaginaryUnit : ImaginaryUnit
  deriving DecidableEq

namespace ComplexFormat

/-- All fifty digits, and the letter `i`. -/
def full : ComplexFormat := ⟨.full, .i⟩

/-- The format with another number of digits. -/
def withPrecision (f : ComplexFormat) (precision : Nat) : ComplexFormat :=
  { f with number := { f.number with precision := NumberFormat.clamp precision } }

/-- The format with another separator. -/
def withSeparator (f : ComplexFormat) (separator : Separator) : ComplexFormat :=
  { f with number := { f.number with separator } }

end ComplexFormat

end Calculator
