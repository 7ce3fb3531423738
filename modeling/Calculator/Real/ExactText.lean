import Calculator.Format.Layout
import Calculator.Real.Arithmetic

/-!
# The exact text of a number

A number is saved as its digits at the working precision, a letter `E` and an
exponent. Nothing is rounded away, so the text reads back as the same number.
-/

namespace Calculator.Decimal

/-- The sign, the digits and the exponent of the number at the working precision. -/
def exactText (x : Decimal) : String :=
  let y := Precision.working.lift x
  let sign := if y.isNegative then ['-'] else []
  let exponentSign := if y.exponent < 0 then ['-'] else []
  String.ofList (sign ++ digitChars y.coefficient.natAbs ++
    'E' :: (exponentSign ++ digitChars y.exponent.natAbs))

end Calculator.Decimal
