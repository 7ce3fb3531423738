import Calculator.Text.Lowercase

/-!
# Units of measurement

The units that a conversion can name, by category. Each has a short name, which is
matched without regard to case, and a description.
-/

namespace Calculator

/-- A unit of measurement. -/
inductive MeasureUnit where
  | mil | inch | foot | yard | mile
  | micron | millimeter | centimeter | meter | kilometer
  | pound | ounce | gram | kilogram
  | microsecond | millisecond | second | minute | hour | day
  | milePerHour | meterPerSecond | footPerHour | kilometerPerHour | knot
  | kelvin | celsius | fahrenheit
  | degree | radian | grad
  deriving DecidableEq

namespace MeasureUnit

/-- What a unit measures. -/
inductive Category where
  | length
  | weight
  | time
  | speed
  | temperature
  | angle
  deriving DecidableEq

/-- The categories in the order of listings. -/
def Category.all : List Category := [.length, .weight, .time, .speed, .temperature, .angle]

/-- The title of a category. -/
def Category.title : Category → String
  | .length => "Length"
  | .weight => "Weight"
  | .time => "Time"
  | .speed => "Speed"
  | .temperature => "Temperature"
  | .angle => "Angle"

/-- All units in the order of listings. -/
def all : List MeasureUnit :=
  [.mil, .inch, .foot, .yard, .mile, .micron, .millimeter, .centimeter, .meter, .kilometer,
   .pound, .ounce, .gram, .kilogram,
   .microsecond, .millisecond, .second, .minute, .hour, .day,
   .milePerHour, .meterPerSecond, .footPerHour, .kilometerPerHour, .knot,
   .kelvin, .celsius, .fahrenheit,
   .degree, .radian, .grad]

/-- The name of a unit inside a conversion. -/
def name : MeasureUnit → String
  | .mil => "mil"
  | .inch => "in"
  | .foot => "ft"
  | .yard => "yd"
  | .mile => "mi"
  | .micron => "micron"
  | .millimeter => "mm"
  | .centimeter => "cm"
  | .meter => "m"
  | .kilometer => "km"
  | .pound => "lb"
  | .ounce => "oz"
  | .gram => "g"
  | .kilogram => "kg"
  | .microsecond => "micros"
  | .millisecond => "ms"
  | .second => "s"
  | .minute => "min"
  | .hour => "h"
  | .day => "d"
  | .milePerHour => "mi/h"
  | .meterPerSecond => "m/s"
  | .footPerHour => "ft/h"
  | .kilometerPerHour => "km/h"
  | .knot => "knot"
  | .kelvin => "k"
  | .celsius => "c"
  | .fahrenheit => "f"
  | .degree => "deg"
  | .radian => "rad"
  | .grad => "grad"

/-- The description of a unit in a listing. -/
def description : MeasureUnit → String
  | .mil => "thousandth of an inch"
  | .inch => "inch"
  | .foot => "foot"
  | .yard => "yard"
  | .mile => "mile"
  | .micron => "micrometer"
  | .millimeter => "millimeter"
  | .centimeter => "centimeter"
  | .meter => "meter"
  | .kilometer => "kilometer"
  | .pound => "pound"
  | .ounce => "ounce"
  | .gram => "gram"
  | .kilogram => "kilogram"
  | .microsecond => "microsecond"
  | .millisecond => "millisecond"
  | .second => "second"
  | .minute => "minute"
  | .hour => "hour"
  | .day => "day"
  | .milePerHour => "miles per hour"
  | .meterPerSecond => "meters per second"
  | .footPerHour => "feet per hour"
  | .kilometerPerHour => "kilometers per hour"
  | .knot => "nautical mile per hour"
  | .kelvin => "kelvin"
  | .celsius => "degree Celsius"
  | .fahrenheit => "degree Fahrenheit"
  | .degree => "degree"
  | .radian => "radian"
  | .grad => "gradian"

/-- What the unit measures. -/
def category : MeasureUnit → Category
  | .mil | .inch | .foot | .yard | .mile
  | .micron | .millimeter | .centimeter | .meter | .kilometer => .length
  | .pound | .ounce | .gram | .kilogram => .weight
  | .microsecond | .millisecond | .second | .minute | .hour | .day => .time
  | .milePerHour | .meterPerSecond | .footPerHour | .kilometerPerHour | .knot => .speed
  | .kelvin | .celsius | .fahrenheit => .temperature
  | .degree | .radian | .grad => .angle

/-- The unit with this name, in any case of its letters. -/
def ofName? (name : String) : Option MeasureUnit :=
  let key := Text.lowercase name
  all.find? (·.name == key)

/-- The units of a category in the order of listings. -/
def inCategory (category : Category) : List MeasureUnit := all.filter (·.category == category)

/-- The list of all units is complete. -/
theorem mem_all (unit : MeasureUnit) : unit ∈ all := by
  cases unit <;> decide

end MeasureUnit

end Calculator
