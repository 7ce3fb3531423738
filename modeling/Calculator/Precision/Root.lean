import Calculator.Precision.Basic

/-!
# Square roots

The root is taken of an integer, digit by digit in base four, with more digits
than the precision keeps. Cutting it off there loses nothing: no half of a last
place lies between the cut-off root and the root itself.
-/

namespace Calculator

/-- The integer part of the square root of `n < 4 ^ limit`. -/
def floorRoot : Nat → Nat → Nat
  | 0, _ => 0
  | limit + 1, n =>
    let r := 2 * floorRoot limit (n / 4)
    if (r + 1) * (r + 1) ≤ n then r + 1 else r

/-- The integer part of the square root of `n`. -/
def floorSqrt (n : Nat) : Nat := floorRoot (n.log2 / 2 + 1) n

/-- The integer part of a root is not above the root. -/
theorem floorRoot_sq_le (limit n : Nat) : floorRoot limit n * floorRoot limit n ≤ n := by
  induction limit generalizing n with
  | zero => simp [floorRoot]
  | succ limit ih =>
    rw [floorRoot]
    split
    · assumption
    · have := ih (n / 4)
      have four : 4 * (n / 4) ≤ n := by omega
      calc 2 * floorRoot limit (n / 4) * (2 * floorRoot limit (n / 4))
          = 4 * (floorRoot limit (n / 4) * floorRoot limit (n / 4)) := by
            rw [Nat.mul_mul_mul_comm]
        _ ≤ 4 * (n / 4) := Nat.mul_le_mul_left 4 this
        _ ≤ n := four

namespace Precision

/-- The root of a positive number cut off after more digits than the precision has, as a coefficient
and an exponent. The padding makes the exponent of the radicand even. -/
def rootParts (p : Precision) (x : Decimal) : Int × Int :=
  let short := 2 * (p.digits + 1) - x.digits
  let pad := if (x.exponent - short) % 2 = 0 then short else short + 1
  (floorSqrt (x.coefficient.natAbs * tenPow pad), (x.exponent - pad) / 2)

/-- The rounded square root, rounded first to ten more digits. -/
def sqrt (p : Precision) (x : Decimal) : Except Condition Decimal :=
  if x.isZero then .ok .zero
  else if x.isNegative then .error .invalidOperation
  else
    let wide := p.widened
    let (c, e) := wide.rootParts (wide.lift x)
    p.round (.ofPartsRounded wide.digits c e)

end Precision

end Calculator
