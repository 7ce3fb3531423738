import Calculator.Json.Basic
import Calculator.Real.ExactText

/-!
# Saved numbers

A real number is saved as its exact text, a complex number as the record of its parts.
Reading accepts every numeral that the calculator reads.
-/

namespace Calculator

def Decimal.toJson (x : Decimal) : Json := .text x.exactText

def Decimal.ofJson? (value : Json) : Option Decimal := do
  (Decimal.parse (← value.text?)).toOption

def Complex.toJson (z : Complex) : Json := .object [("re", z.re.toJson), ("im", z.im.toJson)]

def Complex.ofJson? (value : Json) : Option Complex := do
  let [some re, some im] ← value.record? ["re", "im"] | none
  return ⟨← Decimal.ofJson? re, ← Decimal.ofJson? im⟩

end Calculator
