import Calculator.Decimal.Digits

/-!
# Exact decimal numbers

A `Decimal` is `coefficient · 10 ^ exponent` in reduced form: the coefficient
does not end in a zero, and zero is `0 · 10 ^ 0`. Every number of this kind has
one reduced form, so equality of numbers is equality of values. Addition,
subtraction, multiplication and comparison are exact; rounding is a separate
step.
-/

namespace Calculator

/-- A decimal number in reduced form. -/
structure Decimal where
  coefficient : Int
  exponent : Int
  reduced : coefficient.natAbs % 10 ≠ 0 ∨ coefficient = 0 ∧ exponent = 0
  deriving DecidableEq

namespace Decimal

/-- The number zero. -/
def zero : Decimal := ⟨0, 0, .inr ⟨rfl, rfl⟩⟩

/-- The number one. -/
def one : Decimal := ⟨1, 0, .inl (by decide)⟩

/-- The reduced form of `c · 10 ^ e`. -/
def ofParts (c e : Int) : Decimal :=
  if vanishes : c = 0 then zero
  else
    let n := c.natAbs
    let stripped := dropZeros n.log2 n
    ⟨c.sign * stripped.1, e + stripped.2, .inl (by
      have := dropZeros_mod (n := n) (by omega) (Nat.le_refl n.log2)
      rcases Int.lt_trichotomy c 0 with h | h | h
      · simpa [Int.sign_eq_neg_one_of_neg h] using this
      · exact absurd h vanishes
      · simpa [Int.sign_eq_one_of_pos h] using this)⟩

/-- The integer `n`. -/
def ofInt (n : Int) : Decimal := ofParts n 0

instance {n : Nat} : OfNat Decimal n := ⟨ofInt n⟩

/-! ## Sign and size -/

/-- The number is zero. -/
def isZero (x : Decimal) : Bool := x.coefficient == 0

/-- The number is below zero. -/
def isNegative (x : Decimal) : Bool := decide (x.coefficient < 0)

/-- The number is above zero. -/
def isPositive (x : Decimal) : Bool := decide (0 < x.coefficient)

/-- The number of digits of the coefficient. -/
def digits (x : Decimal) : Nat := digitCount x.coefficient.natAbs

/-- The exponent of the leading digit. -/
def adjusted (x : Decimal) : Int := x.exponent + x.digits - 1

/-! ## Exact arithmetic -/

/-- The number with the opposite sign. -/
def neg (x : Decimal) : Decimal :=
  ⟨-x.coefficient, x.exponent, by have := x.reduced; omega⟩

/-- The number without its sign. -/
def abs (x : Decimal) : Decimal :=
  ⟨x.coefficient.natAbs, x.exponent, by have := x.reduced; omega⟩

/-- The coefficient of `x` when it is written with an exponent that is not larger. -/
def coefficientAt (x : Decimal) (e : Int) : Int :=
  if x.coefficient = 0 then 0 else x.coefficient * tenPow (x.exponent - e).toNat

/-- The exact sum: both numbers are written with the smaller of the two exponents. -/
def sum (x y : Decimal) : Decimal :=
  if x.coefficient = 0 then y
  else if y.coefficient = 0 then x
  else
    let e := min x.exponent y.exponent
    ofParts (x.coefficientAt e + y.coefficientAt e) e

/-- The exact product. -/
def product (x y : Decimal) : Decimal :=
  ofParts (x.coefficient * y.coefficient) (x.exponent + y.exponent)

instance : Neg Decimal := ⟨neg⟩
instance : Add Decimal := ⟨sum⟩
instance : Sub Decimal := ⟨fun x y => x + -y⟩
instance : Mul Decimal := ⟨product⟩

/-! ## Order -/

/-- The order of two numbers is the sign of their difference. -/
def compare (x y : Decimal) : Ordering := Ord.compare (x - y).coefficient 0

instance : Ord Decimal := ⟨compare⟩
instance : LT Decimal := ⟨fun x y => (x - y).coefficient < 0⟩
instance : LE Decimal := ⟨fun x y => (x - y).coefficient ≤ 0⟩
instance (x y : Decimal) : Decidable (x < y) := Int.decLt _ _
instance (x y : Decimal) : Decidable (x ≤ y) := Int.decLe _ _

/-- The larger of two numbers. -/
def max (x y : Decimal) : Decimal := if x ≤ y then y else x

/-- The smaller of two numbers. -/
def min (x y : Decimal) : Decimal := if x ≤ y then x else y

/-! ## Rounding -/

/-- `c · 10 ^ e` to the given number of significant digits, a half going away from zero. No digits
stand for no limit. -/
def ofPartsRounded (digits : Nat) (c e : Int) : Decimal :=
  let excess := digitCount c.natAbs - digits
  if digits = 0 ∨ excess = 0 then ofParts c e
  else ofParts (c.sign * roundDiv c.natAbs (tenPow excess)) (e + excess)

/-- The number to the given count of significant digits, a half going away from zero. -/
def roundTo (x : Decimal) (digits : Nat) : Decimal :=
  ofPartsRounded digits x.coefficient x.exponent

/-! ## Laws -/

theorem ext_parts {x y : Decimal} (c : x.coefficient = y.coefficient)
    (e : x.exponent = y.exponent) : x = y := by
  cases x; cases y; simp_all

@[simp] theorem ofParts_zero (e : Int) : ofParts 0 e = zero := rfl

@[simp] theorem coefficient_neg (x : Decimal) : (-x).coefficient = -x.coefficient := rfl

@[simp] theorem exponent_neg (x : Decimal) : (-x).exponent = x.exponent := rfl

@[simp] theorem neg_neg (x : Decimal) : - -x = x := ext_parts (by simp) (by simp)

/-- The reduced form is that of a reduced number itself. -/
theorem ofParts_eq_self (x : Decimal) : ofParts x.coefficient x.exponent = x := by
  have red := x.reduced
  unfold ofParts
  split
  · exact ext_parts (by simp_all [zero]) (by simp_all [zero])
  · rename_i nonzero
    have last : x.coefficient.natAbs % 10 ≠ 0 := by omega
    have whole : ∀ limit, dropZeros limit x.coefficient.natAbs = (x.coefficient.natAbs, 0) := by
      intro limit
      cases limit <;> simp [dropZeros, last]
    refine ext_parts ?_ (by simp [whole])
    simp only [whole]
    exact Int.sign_mul_natAbs x.coefficient

end Decimal

end Calculator
