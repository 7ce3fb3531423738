import Calculator.Measure.Basic

/-!
# Angle units

The unit in which a session takes the arguments of trigonometric functions and gives
the results of their inverses.
-/

namespace Calculator

/-- The unit of the angles of a session. -/
inductive AngleUnit where
  | radians
  | degrees
  | grads
  deriving DecidableEq

namespace AngleUnit

/-- The unit of measurement that conversions use. -/
def measure : AngleUnit → MeasureUnit
  | .radians => .radian
  | .degrees => .degree
  | .grads => .grad

/-- The name of the unit in a conversion. -/
def unitName (unit : AngleUnit) : String := unit.measure.name

/-- The name of the unit as it is shown. -/
def displayName : AngleUnit → String
  | .radians => "Radians"
  | .degrees => "Degrees"
  | .grads => "Gradians"

/-- The unit with this name, short or long, in any case of its letters. -/
def ofName? (name : String) : Option AngleUnit :=
  let key := Text.lowercase name
  if key ∈ ["rad", "radian", "radians"] then some .radians
  else if key ∈ ["deg", "degree", "degrees"] then some .degrees
  else if key ∈ ["grad", "grads", "gradian", "gradians"] then some .grads
  else none

/-- The message about a name that belongs to no angle unit. -/
def unknownMessage (name : String) : String := s!"Unknown angle unit '{name}'"

end AngleUnit

end Calculator
