import Calculator.BuiltIn
import Calculator.Json.Basic

/-!
# The catalogue

The entries of the tables of units and functions as records, the titles of their
categories in lower case.
-/

namespace Calculator

def MeasureUnit.toJson (unit : MeasureUnit) : Json :=
  .object [("name", .text unit.name), ("description", .text unit.description),
    ("category", .text (Text.lowercase unit.category.title))]

def BuiltIn.toJson (f : BuiltIn) : Json :=
  .object [("name", .text f.name), ("aliases", .list (f.aliases.map .text)),
    ("description", .text f.description),
    ("category", .text (Text.lowercase f.category.title))]

end Calculator
