import Calculator.Measure.Basic
import Calculator.Real.Trigonometry

/-!
# Unit conversion

Most pairs of units of a category are related by a constant factor, which a table
gives as a ratio; going against the table divides. Temperatures and radians follow
formulas. There is no conversion of a unit into itself.
-/

namespace Calculator

/-- The failure of a conversion. -/
inductive UnitError where
  | unknownUnit (name : String)
  | unknownConversion (source target : String)
  | arithmetic (error : ArithmeticError)
  deriving DecidableEq

namespace UnitError

def code : UnitError → String
  | .unknownUnit _ => "UNKNOWN_UNIT"
  | .unknownConversion _ _ => "UNKNOWN_CONVERSION"
  | .arithmetic error => error.code

def message : UnitError → String
  | .unknownUnit name => s!"Unknown unit '{name}'"
  | .unknownConversion source target => s!"There is no unit conversion '{source}->{target}'"
  | .arithmetic error => error.message

end UnitError

instance : MonadLift (Except ArithmeticError) (Except UnitError) :=
  ⟨fun answer => answer.mapError .arithmetic⟩

namespace MeasureUnit

/-! ## Constant factors -/

/-- One `source` is `numerator / denominator` of `target`. -/
structure LinearConversion where
  source : MeasureUnit
  target : MeasureUnit
  numerator : Nat
  denominator : Nat

/-- The factor at the working precision. -/
def LinearConversion.factor (conversion : LinearConversion) : Decimal :=
  let (c, e) := Precision.working.quotientParts (.ofInt conversion.numerator)
    (.ofInt conversion.denominator)
  .ofPartsRounded Precision.working.digits c e

/-- The conversions with a constant factor. -/
def linearConversions : List LinearConversion := [
  ⟨.mil, .micron, 127, 5⟩,
  ⟨.inch, .mil, 1000, 1⟩,
  ⟨.inch, .micron, 25400, 1⟩,
  ⟨.inch, .millimeter, 127, 5⟩,
  ⟨.inch, .centimeter, 127, 50⟩,
  ⟨.foot, .mil, 12000, 1⟩,
  ⟨.foot, .inch, 12, 1⟩,
  ⟨.foot, .micron, 304800, 1⟩,
  ⟨.foot, .millimeter, 1524, 5⟩,
  ⟨.foot, .centimeter, 762, 25⟩,
  ⟨.yard, .mil, 36000, 1⟩,
  ⟨.yard, .inch, 36, 1⟩,
  ⟨.yard, .foot, 3, 1⟩,
  ⟨.yard, .micron, 914400, 1⟩,
  ⟨.yard, .millimeter, 4572, 5⟩,
  ⟨.yard, .centimeter, 2286, 25⟩,
  ⟨.mile, .mil, 63360000, 1⟩,
  ⟨.mile, .inch, 63360, 1⟩,
  ⟨.mile, .foot, 5280, 1⟩,
  ⟨.mile, .yard, 1760, 1⟩,
  ⟨.mile, .micron, 1609344000, 1⟩,
  ⟨.mile, .millimeter, 1609344, 1⟩,
  ⟨.mile, .centimeter, 804672, 5⟩,
  ⟨.mile, .meter, 201168, 125⟩,
  ⟨.mile, .kilometer, 25146, 15625⟩,
  ⟨.millimeter, .mil, 5000, 127⟩,
  ⟨.millimeter, .micron, 1000, 1⟩,
  ⟨.centimeter, .mil, 50000, 127⟩,
  ⟨.centimeter, .micron, 10000, 1⟩,
  ⟨.centimeter, .millimeter, 10, 1⟩,
  ⟨.meter, .mil, 5000000, 127⟩,
  ⟨.meter, .inch, 5000, 127⟩,
  ⟨.meter, .foot, 1250, 381⟩,
  ⟨.meter, .yard, 1250, 1143⟩,
  ⟨.meter, .micron, 1000000, 1⟩,
  ⟨.meter, .millimeter, 1000, 1⟩,
  ⟨.meter, .centimeter, 100, 1⟩,
  ⟨.kilometer, .mil, 5000000000, 127⟩,
  ⟨.kilometer, .inch, 5000000, 127⟩,
  ⟨.kilometer, .foot, 1250000, 381⟩,
  ⟨.kilometer, .yard, 1250000, 1143⟩,
  ⟨.kilometer, .micron, 1000000000, 1⟩,
  ⟨.kilometer, .millimeter, 1000000, 1⟩,
  ⟨.kilometer, .centimeter, 100000, 1⟩,
  ⟨.kilometer, .meter, 1000, 1⟩,
  ⟨.pound, .ounce, 5669905, 354369⟩,
  ⟨.pound, .gram, 1133981, 2500⟩,
  ⟨.ounce, .gram, 354369, 12500⟩,
  ⟨.kilogram, .pound, 2500000, 1133981⟩,
  ⟨.kilogram, .ounce, 12500000, 354369⟩,
  ⟨.kilogram, .gram, 1000, 1⟩,
  ⟨.millisecond, .microsecond, 1000, 1⟩,
  ⟨.second, .microsecond, 1000000, 1⟩,
  ⟨.second, .millisecond, 1000, 1⟩,
  ⟨.minute, .microsecond, 60000000, 1⟩,
  ⟨.minute, .millisecond, 60000, 1⟩,
  ⟨.minute, .second, 60, 1⟩,
  ⟨.hour, .microsecond, 3600000000, 1⟩,
  ⟨.hour, .millisecond, 3600000, 1⟩,
  ⟨.hour, .second, 3600, 1⟩,
  ⟨.hour, .minute, 60, 1⟩,
  ⟨.day, .microsecond, 86400000000, 1⟩,
  ⟨.day, .millisecond, 86400000, 1⟩,
  ⟨.day, .second, 86400, 1⟩,
  ⟨.day, .minute, 1440, 1⟩,
  ⟨.day, .hour, 24, 1⟩,
  ⟨.milePerHour, .footPerHour, 1760, 1⟩,
  ⟨.milePerHour, .kilometerPerHour, 25146, 15625⟩,
  ⟨.meterPerSecond, .milePerHour, 3125, 1397⟩,
  ⟨.meterPerSecond, .footPerHour, 500000, 127⟩,
  ⟨.meterPerSecond, .kilometerPerHour, 18, 5⟩,
  ⟨.meterPerSecond, .knot, 900, 463⟩,
  ⟨.kilometerPerHour, .footPerHour, 1250000, 1143⟩,
  ⟨.knot, .milePerHour, 57875, 50292⟩,
  ⟨.knot, .footPerHour, 2315000, 1143⟩,
  ⟨.knot, .kilometerPerHour, 463, 250⟩,
  ⟨.grad, .degree, 9, 10⟩
  ]

/-- Applies a constant factor in the direction that is asked for, if it is between these units. -/
def LinearConversion.convert? (conversion : LinearConversion) (source target : MeasureUnit)
    (x : Decimal) : Option (Except ArithmeticError Decimal) :=
  if conversion.source = source ∧ conversion.target = target then some (x.mul conversion.factor)
  else if conversion.source = target ∧ conversion.target = source then
    some (x.div conversion.factor)
  else none

/-! ## Formulas -/

/-- The zero of the Celsius scale in kelvins. -/
def celsiusZero : Decimal := .ofParts 27315 (-2)

/-- The zero of the Fahrenheit scale in its own degrees above absolute zero. -/
def fahrenheitZero : Decimal := .ofParts 45967 (-2)

def celsiusToFahrenheit (x : Decimal) : Except ArithmeticError Decimal := do
  (← x.mul (.ofParts 18 (-1))).add 32

def celsiusToKelvin (x : Decimal) : Except ArithmeticError Decimal := x.add celsiusZero

def kelvinToCelsius (x : Decimal) : Except ArithmeticError Decimal := x.sub celsiusZero

def fahrenheitToKelvin (x : Decimal) : Except ArithmeticError Decimal := do
  (← (← x.add fahrenheitZero).mul 5).div 9

def fahrenheitToCelsius (x : Decimal) : Except ArithmeticError Decimal := do
  (← fahrenheitToKelvin x).sub celsiusZero

def kelvinToFahrenheit (x : Decimal) : Except ArithmeticError Decimal := do
  celsiusToFahrenheit (← kelvinToCelsius x)

/-- Radians from a unit with `half` of it in half a turn. -/
def toRadians (half x : Decimal) : Except ArithmeticError Decimal := do
  (← x.mul .pi).div half

/-- A unit with `half` of it in half a turn, from radians. -/
def ofRadians (half x : Decimal) : Except ArithmeticError Decimal := do
  (← x.mul half).div .pi

/-- The formula between two units, if there is one. -/
def formula? : MeasureUnit → MeasureUnit → Option (Decimal → Except ArithmeticError Decimal)
  | .celsius, .fahrenheit => some celsiusToFahrenheit
  | .celsius, .kelvin => some celsiusToKelvin
  | .fahrenheit, .celsius => some fahrenheitToCelsius
  | .fahrenheit, .kelvin => some fahrenheitToKelvin
  | .kelvin, .celsius => some kelvinToCelsius
  | .kelvin, .fahrenheit => some kelvinToFahrenheit
  | .degree, .radian => some (toRadians 180)
  | .radian, .degree => some (ofRadians 180)
  | .grad, .radian => some (toRadians 200)
  | .radian, .grad => some (ofRadians 200)
  | _, _ => none

/-! ## Conversion -/

/-- The conversion of a number between two units, if they are related. -/
def convert? (source target : MeasureUnit) (x : Decimal) :
    Option (Except ArithmeticError Decimal) :=
  match linearConversions.findSome? (·.convert? source target x) with
  | some answer => some answer
  | none => (formula? source target).map (· x)

end MeasureUnit

/-- Converts a number between units given by name. -/
def Decimal.convert (x : Decimal) (source target : String) : Except UnitError Decimal := do
  let some a := MeasureUnit.ofName? source | throw (.unknownUnit source)
  let some b := MeasureUnit.ofName? target | throw (.unknownUnit target)
  match MeasureUnit.convert? a b x with
  | some answer => answer
  | none => throw (.unknownConversion source target)

end Calculator
