import Calculator.Proofs.Measure.Conversion

/-!
# The factors as they are written

A factor is written in decimals, a quotient with about a hundred and fifty digits, and is read at the
working precision. The ratios of `linearConversions` are the same numbers to this precision.
-/

namespace Calculator.MeasureUnit

open Precision (working)

/-- A factor as it is written: its digits without the point, and the power of ten that the last of them
stands at. -/
structure WrittenFactor where
  source : MeasureUnit
  target : MeasureUnit
  digits : ℕ
  exponent : ℤ

/-- The factors as they are written. -/
def writtenFactors : List WrittenFactor := [
  ⟨.mil, .micron, 254, -1⟩,
  ⟨.inch, .mil, 1000, 0⟩,
  ⟨.inch, .micron, 25400, 0⟩,
  ⟨.inch, .millimeter, 254, -1⟩,
  ⟨.inch, .centimeter, 254, -2⟩,
  ⟨.foot, .mil, 12000, 0⟩,
  ⟨.foot, .inch, 12, 0⟩,
  ⟨.foot, .micron, 304800, 0⟩,
  ⟨.foot, .millimeter, 3048, -1⟩,
  ⟨.foot, .centimeter, 3048, -2⟩,
  ⟨.yard, .mil, 36000, 0⟩,
  ⟨.yard, .inch, 36, 0⟩,
  ⟨.yard, .foot, 3, 0⟩,
  ⟨.yard, .micron, 914400, 0⟩,
  ⟨.yard, .millimeter, 9144, -1⟩,
  ⟨.yard, .centimeter, 9144, -2⟩,
  ⟨.mile, .mil, 63360000, 0⟩,
  ⟨.mile, .inch, 63360, 0⟩,
  ⟨.mile, .foot, 5280, 0⟩,
  ⟨.mile, .yard, 1760, 0⟩,
  ⟨.mile, .micron, 1609344000, 0⟩,
  ⟨.mile, .millimeter, 1609344, 0⟩,
  ⟨.mile, .centimeter, 1609344, -1⟩,
  ⟨.mile, .meter, 1609344, -3⟩,
  ⟨.mile, .kilometer, 1609344, -6⟩,
  ⟨.millimeter, .mil,
    39370078740157480314960629921259842519685039370078740157480314960629921259842519685039370078740157480314960629921259842519685039370078740157480314960629921,
    -153⟩,
  ⟨.millimeter, .micron, 1000, 0⟩,
  ⟨.centimeter, .mil,
    39370078740157480314960629921259842519685039370078740157480314960629921259842519685039370078740157480314960629921259842519685039370078740157480314960629921,
    -152⟩,
  ⟨.centimeter, .micron, 10000, 0⟩,
  ⟨.centimeter, .millimeter, 10, 0⟩,
  ⟨.meter, .mil,
    39370078740157480314960629921259842519685039370078740157480314960629921259842519685039370078740157480314960629921259842519685039370078740157480314960629921,
    -150⟩,
  ⟨.meter, .inch,
    39370078740157480314960629921259842519685039370078740157480314960629921259842519685039370078740157480314960629921259842519685039370078740157480314960629921,
    -153⟩,
  ⟨.meter, .foot,
    32808398950131233595800524934383202099737532808398950131233595800524934383202099737532808398950131233595800524934383202099737532808398950131233595800524934,
    -154⟩,
  ⟨.meter, .yard,
    10936132983377077865266841644794400699912510936132983377077865266841644794400699912510936132983377077865266841644794400699912510936132983377077865266841645,
    -154⟩,
  ⟨.meter, .micron, 1000000, 0⟩,
  ⟨.meter, .millimeter, 1000, 0⟩,
  ⟨.meter, .centimeter, 100, 0⟩,
  ⟨.kilometer, .mil,
    39370078740157480314960629921259842519685039370078740157480314960629921259842519685039370078740157480314960629921259842519685039370078740157480314960629921,
    -147⟩,
  ⟨.kilometer, .inch,
    39370078740157480314960629921259842519685039370078740157480314960629921259842519685039370078740157480314960629921259842519685039370078740157480314960629921,
    -150⟩,
  ⟨.kilometer, .foot,
    32808398950131233595800524934383202099737532808398950131233595800524934383202099737532808398950131233595800524934383202099737532808398950131233595800524934,
    -151⟩,
  ⟨.kilometer, .yard,
    10936132983377077865266841644794400699912510936132983377077865266841644794400699912510936132983377077865266841644794400699912510936132983377077865266841645,
    -151⟩,
  ⟨.kilometer, .micron, 1000000000, 0⟩,
  ⟨.kilometer, .millimeter, 1000000, 0⟩,
  ⟨.kilometer, .centimeter, 100000, 0⟩,
  ⟨.kilometer, .meter, 1000, 0⟩,
  ⟨.pound, .ounce,
    16000002821917267029565227206668754885444268544934799601545281895425389918418371810175269281455206296261806196365934943519325900403251977458524870967832965,
    -153⟩,
  ⟨.pound, .gram, 4535924, -4⟩,
  ⟨.ounce, .gram, 2834952, -5⟩,
  ⟨.kilogram, .pound,
    22046224760379583079434311509628468201848179114112141208715137202475173746297336551494249021809007381957898765499598317784865883996292706844294569309362326,
    -154⟩,
  ⟨.kilogram, .ounce,
    35273965837869565340083359436068053356811684995019316023692817373980229647627190866018190078703272577454574186793991573755040649718231560887097912063414125,
    -153⟩,
  ⟨.kilogram, .gram, 1000, 0⟩,
  ⟨.millisecond, .microsecond, 1000, 0⟩,
  ⟨.second, .microsecond, 1000000, 0⟩,
  ⟨.second, .millisecond, 1000, 0⟩,
  ⟨.minute, .microsecond, 60000000, 0⟩,
  ⟨.minute, .millisecond, 60000, 0⟩,
  ⟨.minute, .second, 60, 0⟩,
  ⟨.hour, .microsecond, 3600000000, 0⟩,
  ⟨.hour, .millisecond, 3600000, 0⟩,
  ⟨.hour, .second, 3600, 0⟩,
  ⟨.hour, .minute, 60, 0⟩,
  ⟨.day, .microsecond, 86400000000, 0⟩,
  ⟨.day, .millisecond, 86400000, 0⟩,
  ⟨.day, .second, 86400, 0⟩,
  ⟨.day, .minute, 1440, 0⟩,
  ⟨.day, .hour, 24, 0⟩,
  ⟨.milePerHour, .footPerHour, 1760, 0⟩,
  ⟨.milePerHour, .kilometerPerHour, 1609344, -6⟩,
  ⟨.meterPerSecond, .milePerHour,
    22369362920544022906227630637079455977093772369362920544022906227630637079455977093772369362920544022906227630637079455977093772369362920544022906227630637,
    -154⟩,
  ⟨.meterPerSecond, .footPerHour,
    39370078740157480314960629921259842519685039370078740157480314960629921259842519685039370078740157480314960629921259842519685039370078740157480314960629921,
    -151⟩,
  ⟨.meterPerSecond, .kilometerPerHour, 36, -1⟩,
  ⟨.meterPerSecond, .knot,
    19438444924406047516198704103671706263498920086393088552915766738660907127429805615550755939524838012958963282937365010799136069114470842332613390928725702,
    -154⟩,
  ⟨.kilometerPerHour, .footPerHour,
    10936132983377077865266841644794400699912510936132983377077865266841644794400699912510936132983377077865266841644794400699912510936132983377077865266841645,
    -151⟩,
  ⟨.knot, .milePerHour,
    11507794480235425117314881094408653463771574007794480235425117314881094408653463771574007794480235425117314881094408653463771574007794480235425117314881094,
    -154⟩,
  ⟨.knot, .footPerHour,
    20253718285214348206474190726159230096237970253718285214348206474190726159230096237970253718285214348206474190726159230096237970253718285214348206474190726,
    -151⟩,
  ⟨.knot, .kilometerPerHour, 1852, -3⟩,
  ⟨.grad, .degree, 9, -1⟩
  ]

/-- The factor between two units is the number that is written for them, rounded to the working
precision. -/
theorem factors_eq_written :
    linearConversions.map (fun c => (c.source, c.target, c.factor)) =
      writtenFactors.map fun w => (w.source, w.target, working.lift (.ofParts w.digits w.exponent)) := by
  decide +kernel

end Calculator.MeasureUnit
