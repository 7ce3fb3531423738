import Calculator.Complex.Basic
import Calculator.Format.Basic

/-!
# The layout of numbers

A number is rounded to the digits of its format and then laid out in one of three
ways: plain digits, one digit before the separator and an exponent, or one to three
digits before the separator and an exponent divisible by three. A complex number
leaves out a part that is shown as zero.
-/

namespace Calculator

/-- The decimal digits of a natural number, as they are written. -/
def digitChars (n : Nat) : List Char := Nat.toDigits 10 n

/-- The digits with a separator after the first few; nothing to separate, no separator. -/
def separate (separator : Char) (whole : Nat) (ds : List Char) : List Char :=
  if ds.length ≤ whole then ds else ds.take whole ++ separator :: ds.drop whole

namespace NumberFormat

/-- The exponent of the leading digit of the smallest fractions that are written plainly. -/
def smallestPlain : Int := -6

/-- Digits and zeros up to the separator, or a fraction after it. -/
def plain (f : NumberFormat) (x : Decimal) : List Char :=
  let ds := digitChars x.coefficient.natAbs
  if 0 ≤ x.exponent then ds ++ List.replicate x.exponent.toNat '0'
  else if 0 ≤ x.adjusted then separate f.separator.glyph (x.adjusted + 1).toNat ds
  else '0' :: f.separator.glyph :: (List.replicate (-x.adjusted - 1).toNat '0' ++ ds)

/-- The letter, the sign, which is always written, and the digits of an exponent. -/
def exponentSuffix (f : NumberFormat) (e : Int) : List Char :=
  f.exponentCase.letter :: (if e < 0 then '-' else '+') :: digitChars e.natAbs

/-- One digit before the separator, and an exponent. -/
def exponential (f : NumberFormat) (x : Decimal) : List Char :=
  separate f.separator.glyph 1 (digitChars x.coefficient.natAbs) ++ f.exponentSuffix x.adjusted

/-- One to three digits before the separator, filled up with zeros, and an exponent divisible by
three unless it is zero. -/
def engineering (f : NumberFormat) (x : Decimal) : List Char :=
  let shift := x.adjusted % 3
  let whole := (shift + 1).toNat
  let ds := digitChars x.coefficient.natAbs
  let e := x.adjusted - shift
  separate f.separator.glyph whole (ds ++ List.replicate (whole - ds.length) '0') ++
    if e = 0 then [] else f.exponentSuffix e

/-- The layout of a number without its sign, by the style of the format. -/
def magnitude (f : NumberFormat) (x : Decimal) : List Char :=
  let plainFraction := x.exponent ≤ 0 ∧ smallestPlain ≤ x.adjusted
  match f.style with
  | .general =>
    if smallestPlain ≤ x.adjusted ∧ x.adjusted < f.digits then f.plain x else f.exponential x
  | .scientific => if plainFraction then f.plain x else f.exponential x
  | .engineering => if plainFraction then f.plain x else f.engineering x

/-- Lays out a number that is already rounded. -/
def layout (f : NumberFormat) (x : Decimal) : List Char :=
  if x.isZero then ['0']
  else if x.isNegative then '-' :: f.magnitude x
  else f.magnitude x

end NumberFormat

/-- The number as the format shows it. -/
def Decimal.render (x : Decimal) (f : NumberFormat) : String :=
  String.ofList (f.layout (x.roundTo f.digits))

/-- A complex number as the format shows it: the part shown as zero is left out. -/
def Complex.render (z : Complex) (f : ComplexFormat) : String :=
  let re := z.re.render f.number
  let im := z.im.abs.render f.number
  let imaginary := im ++ String.singleton f.imaginaryUnit.glyph
  if im = "0" then re
  else if re = "0" then if z.im.isNegative then "-" ++ imaginary else imaginary
  else re ++ (if z.im.isNegative then " - " else " + ") ++ imaginary

end Calculator
