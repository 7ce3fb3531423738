import Calculator.Precision.Basic

/-!
# Operations on the digits of integers

A shift moves the digits of an integer by places. The logical operations take
integers written with zeros and ones only and combine them digit by digit. All of
them work on the list of digits, least significant digit first. Rows of digits are
filled up with zeros to a common width, which is limited.
-/

namespace Calculator

/-- The decimal digits of a number of at most `limit + 1` digits, least significant first. -/
def digitsUpTo : Nat → Nat → List Nat
  | 0, n => [n]
  | limit + 1, n => if n < 10 then [n] else n % 10 :: digitsUpTo limit (n / 10)

/-- The decimal digits of `n`, least significant first; zero is a single digit. -/
def digitList (n : Nat) : List Nat := digitsUpTo n.log2 n

/-- The number with these digits, least significant first. -/
def ofDigitList (ds : List Nat) : Nat := ds.foldr (fun d n => d + 10 * n) 0

/-- The digits filled up with leading zeros to the given width. -/
def padded (width : Nat) (ds : List Nat) : List Nat := ds ++ List.replicate (width - ds.length) 0

/-- The greatest width that a row of digits can be filled up to. -/
def maxWidth : Nat := 65535

namespace Precision

/-- The number as an integer with at most the digits of the precision. -/
def integerOf (p : Precision) (x : Decimal) : Except Condition Int :=
  if x.isZero then .ok 0
  else if x.adjusted ≥ p.digits then .error .invalidOperation
  else if x.exponent < 0 then .error .invalidOperation
  else .ok (x.coefficient * tenPow x.exponent.toNat)

/-! ## Shifts -/

/-- The digits that are left of a row after a shift, and the exponent of the last of them. To the
left the digits go that no longer fit, and zeros come in as places of the exponent; to the right the
last digits go. -/
def shiftDigits (p : Precision) (amount : Int) (ds : List Nat) : List Nat × Int :=
  if 0 ≤ amount then (ds.take (p.digits - amount.natAbs), amount)
  else (ds.drop amount.natAbs, 0)

/-- Shifts the digits of an integer by at most as many places as the precision has digits; a
negative number of places shifts to the right. -/
def shift (p : Precision) (x places : Decimal) : Except Condition Decimal := do
  let n ← p.integerOf x
  let amount ← p.integerOf places
  if amount.natAbs > p.digits then throw .invalidOperation
  let (moved, e) := p.shiftDigits amount (digitList n.natAbs)
  p.roundParts (n.sign * ofDigitList moved) e

/-! ## Logic -/

/-- The digits of a logical operand: an integer that is not negative, in zeros and ones. -/
def logicalDigits (p : Precision) (x : Decimal) : Except Condition (List Nat) := do
  let n ← p.integerOf x
  let ds := digitList n.natAbs
  if 0 ≤ n ∧ ds.all (· ≤ 1) then return ds
  throw .invalidOperation

/-- The digit of a truth value. -/
def digitOf (b : Bool) : Nat := if b then 1 else 0

/-- Combines two logical operands digit by digit. -/
def logical (p : Precision) (op : Bool → Bool → Bool) (a b : Decimal) :
    Except Condition Decimal := do
  let left ← p.logicalDigits a
  let right ← p.logicalDigits b
  let width := max left.length right.length
  if width > maxWidth then throw .widthExceeded
  let combined := List.zipWith (fun x y => digitOf (op (x == 1) (y == 1)))
    (padded width left) (padded width right)
  p.roundParts (ofDigitList combined) 0

/-- A digit is one where both operands have a one. -/
def and (p : Precision) (a b : Decimal) : Except Condition Decimal := p.logical Bool.and a b

/-- A digit is one where either operand has a one. -/
def or (p : Precision) (a b : Decimal) : Except Condition Decimal := p.logical Bool.or a b

/-- A digit is one where the operands differ. -/
def xor (p : Precision) (a b : Decimal) : Except Condition Decimal := p.logical bne a b

/-- Exchanges the zeros and ones of a logical operand filled up to the digits of the precision. -/
def invert (p : Precision) (x : Decimal) : Except Condition Decimal := do
  let ds ← p.logicalDigits x
  if p.digits > maxWidth then throw .widthExceeded
  p.roundParts (ofDigitList ((padded p.digits ds).map fun d => digitOf (d == 0))) 0

end Precision

end Calculator
