import Calculator.Precision.Basic
import Calculator.Text.Blank

/-!
# Reading numerals

A numeral is an optional sign, digits with at most one point among them, and an
optional exponent: a letter `e` in either case, an optional sign and digits. Blanks
around it do not count. The number it denotes is rounded to the precision, with a
half going away from zero.
-/

namespace Calculator

/-- Every character is a decimal digit. -/
def allDigits (cs : List Char) : Bool := cs.all Char.isDigit

/-- The number that a row of decimal digits denotes. -/
def digitsValue (cs : List Char) : Nat := cs.foldl (fun n c => 10 * n + (c.toNat - '0'.toNat)) 0

/-- Takes a sign off the front; it is true for a minus. -/
def takeSign : List Char → Bool × List Char
  | '-' :: rest => (true, rest)
  | '+' :: rest => (false, rest)
  | cs => (false, cs)

/-- Splits the characters at the first one of a class, which belongs to neither part. -/
def splitAtFirst (mark : Char → Bool) (cs : List Char) : List Char × Option (List Char) :=
  match cs.dropWhile (!mark ·) with
  | [] => (cs, none)
  | _ :: rest => (cs.takeWhile (!mark ·), some rest)

/-- The character separates a mantissa from its exponent. -/
def isExponentMark (c : Char) : Bool := c == 'e' || c == 'E'

/-- The parts of a numeral as they are written. -/
structure Numeral where
  negative : Bool
  whole : List Char
  fraction : List Char
  exponent : Option (List Char)
  deriving DecidableEq

namespace Numeral

/-- Divides trimmed text into the parts of a numeral, whatever characters they hold. -/
def ofChars (cs : List Char) : Numeral :=
  let (negative, rest) := takeSign cs
  let (mantissa, exponent) := splitAtFirst isExponentMark rest
  let (whole, fraction) := splitAtFirst (· == '.') mantissa
  { negative, whole, fraction := fraction.getD [], exponent }

/-- The digits of the mantissa without the point. -/
def digits (n : Numeral) : List Char := n.whole ++ n.fraction

/-- The mantissa has a digit, and digits only. -/
def isWellFormed (n : Numeral) : Bool := !n.digits.isEmpty && allDigits n.digits

end Numeral

/-- Which bound a number with this exponent exceeds. -/
def Condition.ofSign (negative : Bool) : Condition := if negative then .underflow else .overflow

/-- The value of a written exponent. One of more than fifteen digits after its zeros is beyond every
bound. -/
def exponentValue (cs : List Char) : Except Condition Int :=
  let (negative, ds) := takeSign cs
  let significant := ds.dropWhile (· == '0')
  if ds.isEmpty || !allDigits ds then .error .conversionSyntax
  else if significant.length > 15 then .error (.ofSign negative)
  else
    let n : Int := digitsValue significant
    .ok (if negative then -n else n)

namespace Precision

/-- The rounded value of a numeral. A mantissa of zero hides its exponent, whatever is written
there; a number far beyond the bounds is refused before it is formed. -/
def ofNumeral (p : Precision) (n : Numeral) : Except Condition Decimal := do
  if !n.isWellFormed then throw .conversionSyntax
  let magnitude : Int := digitsValue n.digits
  if magnitude = 0 then return .zero
  let written ← match n.exponent with
    | none => pure 0
    | some cs => exponentValue cs
  let e := written - n.fraction.length
  let adjusted := e + (n.digits.dropWhile (· == '0')).length - 1
  if adjusted > 2 * exponentBound ∨ adjusted < -2 * exponentBound then
    throw (.ofSign (decide (adjusted < 0)))
  p.roundParts (if n.negative then -magnitude else magnitude) e

/-- Reads text as a numeral. -/
def ofText (p : Precision) (text : String) : Except Condition Decimal :=
  p.ofNumeral (.ofChars (Text.trim text.toList))

end Precision

end Calculator
