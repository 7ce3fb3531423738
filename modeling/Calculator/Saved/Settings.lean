import Calculator.Json.Basic
import Calculator.Session.Basic

/-!
# Saved settings

The settings of a session as a record, with a record for the format in it. The number
of digits is saved as it is stored, in range or not. Everything but that number has a
default, so a record may leave it out.
-/

namespace Calculator

/-! ## Choices -/

def NumberStyle.toJson : NumberStyle → Json
  | .general => .text "general"
  | .scientific => .text "scientific"
  | .engineering => .text "engineering"

def NumberStyle.ofJson? (value : Json) : Option NumberStyle :=
  match value.choice? with
  | some "general" => some .general
  | some "scientific" => some .scientific
  | some "engineering" => some .engineering
  | _ => none

def ExponentCase.toJson : ExponentCase → Json
  | .upper => .text "upper"
  | .lower => .text "lower"

def ExponentCase.ofJson? (value : Json) : Option ExponentCase :=
  match value.choice? with
  | some "upper" => some .upper
  | some "lower" => some .lower
  | _ => none

def Separator.toJson : Separator → Json
  | .point => .text "point"
  | .comma => .text "comma"

def Separator.ofJson? (value : Json) : Option Separator :=
  match value.choice? with
  | some "point" => some .point
  | some "comma" => some .comma
  | _ => none

def ImaginaryUnit.toJson : ImaginaryUnit → Json
  | .i => .text "i"
  | .j => .text "j"

def ImaginaryUnit.ofJson? (value : Json) : Option ImaginaryUnit :=
  match value.choice? with
  | some "i" => some .i
  | some "j" => some .j
  | _ => none

def AngleUnit.toJson : AngleUnit → Json
  | .radians => .text "radians"
  | .degrees => .text "degrees"
  | .grads => .text "grads"

def AngleUnit.ofJson? (value : Json) : Option AngleUnit :=
  match value.choice? with
  | some "radians" => some .radians
  | some "degrees" => some .degrees
  | some "grads" => some .grads
  | _ => none

/-! ## Formats -/

namespace NumberFormat

/-- The fields of the record of a format. -/
def fieldNames : List String := ["precision", "style", "exponent_case", "separator"]

def jsonFields (f : NumberFormat) : List (String × Json) :=
  [("precision", .number f.precision 0), ("style", f.style.toJson),
    ("exponent_case", f.exponentCase.toJson), ("separator", f.separator.toJson)]

def toJson (f : NumberFormat) : Json := .object f.jsonFields

/-- Reads a format from the fields of its record. -/
def ofFields? : List (Option Json) → Option NumberFormat
  | [some precision, style, exponentCase, separator] => do
    return {
      precision := ← precision.count?
      style := ← Json.orDefault NumberStyle.ofJson? .general style
      exponentCase := ← Json.orDefault ExponentCase.ofJson? .upper exponentCase
      separator := ← Json.orDefault Separator.ofJson? .point separator }
  | _ => none

def ofJson? (value : Json) : Option NumberFormat := do ofFields? (← value.record? fieldNames)

end NumberFormat

namespace ComplexFormat

/-- The format of the parts and the imaginary unit share one record. -/
def toJson (f : ComplexFormat) : Json :=
  .object (f.number.jsonFields ++ [("imaginary_unit", f.imaginaryUnit.toJson)])

/-- Reads the shared record, where an empty object is as good as null for a choice of the parts. -/
def ofJson? (value : Json) : Option ComplexFormat := do
  let fields ← value.namedFields? NumberFormat.fieldNames
  let number ← NumberFormat.ofFields? (fields.map (·.map Json.emptyAsNull))
  let [unit] ← value.namedFields? ["imaginary_unit"] | none
  return { number, imaginaryUnit := ← Json.orDefault ImaginaryUnit.ofJson? .i unit }

end ComplexFormat

/-! ## Settings -/

namespace Settings

def toJson (settings : Settings) : Json :=
  .object [("angle_unit", settings.angleUnit.toJson), ("format", settings.format.toJson)]

def ofJson? (value : Json) : Option Settings := do
  let [unit, format] ← value.record? ["angle_unit", "format"] | none
  return {
    angleUnit := ← Json.orDefault AngleUnit.ofJson? initial.angleUnit unit
    format := ← Json.orDefault ComplexFormat.ofJson? initial.format format }

end Settings

end Calculator
