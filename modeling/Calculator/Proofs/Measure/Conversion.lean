import Mathlib.Tactic.NormNum
import Calculator.Measure.Conversion
import Calculator.Proofs.Real.Extent

/-!
# Conversions between units

Every unit but those of temperature has a size, and a conversion multiplies by the ratio of two
sizes, up to the rounding of the factor and of the result. All factors of the table come from one
list of sizes, so conversions agree with each other.
-/

namespace Calculator

open Precision (working)
open Decimal (IsWorking working_digits_pos)

namespace MeasureUnit

/-! ## Sizes -/

/-- The size of a unit: lengths in meters, weights in grams, times in seconds, speeds in meters per
hour, angles in half turns. A foot per hour has the size of a yard per hour. -/
def size : MeasureUnit → ℚ
  | .mil => 254 / 10000000
  | .inch => 254 / 10000
  | .foot => 3048 / 10000
  | .yard => 9144 / 10000
  | .mile => 1609344 / 1000
  | .micron => 1 / 1000000
  | .millimeter => 1 / 1000
  | .centimeter => 1 / 100
  | .meter => 1
  | .kilometer => 1000
  | .pound => 4535924 / 10000
  | .ounce => 2834952 / 100000
  | .gram => 1
  | .kilogram => 1000
  | .microsecond => 1 / 1000000
  | .millisecond => 1 / 1000
  | .second => 1
  | .minute => 60
  | .hour => 3600
  | .day => 86400
  | .milePerHour => 1609344 / 1000
  | .meterPerSecond => 3600
  | .footPerHour => 9144 / 10000
  | .kilometerPerHour => 1000
  | .knot => 1852
  | .kelvin | .celsius | .fahrenheit => 1
  | .degree => 1 / 180
  | .radian => Decimal.pi.value⁻¹
  | .grad => 1 / 200

theorem pi_value_pos : 0 < Decimal.pi.value := by
  obtain ⟨-, -, -, above, -⟩ := Decimal.digits_pi
  rw [Decimal.lt_iff_value, Decimal.value_ofParts] at above
  exact lt_trans (by norm_num) above

/-- Every unit has a size. -/
theorem size_pos (unit : MeasureUnit) : 0 < unit.size := by
  cases unit with
  | radian => exact inv_pos.2 pi_value_pos
  | _ => norm_num [size]

/-- Every factor of the table is the ratio of two sizes, in numbers that need no rounding. -/
theorem linearConversions_ratio {c : LinearConversion} (mem : c ∈ linearConversions) :
    (c.numerator : ℚ) / c.denominator = c.source.size / c.target.size ∧
      c.numerator < 10 ^ 136 ∧ c.denominator < 10 ^ 136 ∧ c.denominator ≠ 0 := by
  have each : ∀ c ∈ linearConversions,
      (c.numerator : ℚ) / c.denominator = c.source.size / c.target.size ∧
        c.numerator < 10 ^ 136 ∧ c.denominator < 10 ^ 136 ∧ c.denominator ≠ 0 := by
    decide +kernel
  exact each c mem

/-! ## What a conversion computes -/

theorem value_ofNat (n : ℕ) : (Decimal.ofInt n).value = n := by
  rw [Decimal.ofInt, Decimal.value_ofParts]
  simp

/-- The factor of an entry is its ratio, rounded. -/
theorem LinearConversion.value_factor {c : LinearConversion} (few : c.numerator < 10 ^ 136)
    (nonzero : c.denominator ≠ 0) :
    c.factor.value = nearest working.digits (c.numerator / c.denominator) := by
  have numerator : (Decimal.ofInt c.numerator).digits ≤ working.digits :=
    (Decimal.isWorking_ofInt (Int.natAbs_natCast _ ▸ few)).digits_le
  have divisor : (Decimal.ofInt c.denominator).coefficient ≠ 0 := by
    rw [← Decimal.value_eq_zero_iff.ne, value_ofNat]
    exact_mod_cast nonzero
  have rounded := Precision.nearest_quotientParts numerator divisor
  rw [value_ofNat, value_ofNat] at rounded
  rw [factor, Decimal.value_ofPartsRounded working_digits_pos, rounded]

/-- A factor whose fraction is in range is a working value. -/
theorem LinearConversion.isWorking_factor {c : LinearConversion} (few : c.numerator < 10 ^ 136)
    (few' : c.denominator < 10 ^ 136) (nonzero : c.denominator ≠ 0) : c.factor.IsWorking := by
  have top : Precision.exponentBound.toNat = 999999 := rfl
  have size : Within (136 + 136) ((c.numerator : ℚ) / c.denominator) :=
    (Within.natCast few).div (.natCast few')
  have short : c.factor.digits ≤ working.digits := by
    rw [factor]
    exact Decimal.digits_ofPartsRounded_le _ _ working_digits_pos
  refine Decimal.isWorking_iff.2 ⟨short, ?_⟩
  rw [value_factor few nonzero]
  exact (size.mono (by omega)).inRange_nearest working_digits_pos

variable {x y : Decimal} {source target : MeasureUnit}

/-- A conversion by a factor rounds the factor and the result. -/
theorem LinearConversion.drift_convert? {c : LinearConversion} (mem : c ∈ linearConversions)
    (hx : x.IsWorking) (h : c.convert? source target x = some (.ok y)) :
    y.IsWorking ∧ Drift working.digits 2 y.value (x.value * (source.size / target.size)) := by
  obtain ⟨ratio, few, few', nonzero⟩ := linearConversions_ratio mem
  have factorWorking := isWorking_factor few few' nonzero
  have factor : Drift working.digits 1 c.factor.value (c.source.size / c.target.size) := by
    rw [value_factor few nonzero, ratio]
    exact .nearest working_digits_pos _
  have operand : Drift working.digits 0 x.value x.value := .refl working_digits_pos _
  unfold convert? at h
  split at h
  · rename_i along
    obtain ⟨rfl, rfl⟩ := along
    have product := Option.some.inj h
    refine ⟨Decimal.yields_mul _ _ _ product, ?_⟩
    exact (Decimal.drift_of_mul hx factorWorking product).trans working_digits_pos
      (operand.mul working_digits_pos factor)
  · split at h
    · rename_i against
      obtain ⟨rfl, rfl⟩ := against
      have quotient := Option.some.inj h
      have divisor : c.factor.value ≠ 0 :=
        mt (factor.eq_zero_iff working_digits_pos).1 (div_pos (size_pos _) (size_pos _)).ne'
      refine ⟨Decimal.yields_div _ _ _ quotient, ?_⟩
      rw [← inv_div, ← div_eq_mul_inv]
      exact (Decimal.drift_of_div hx factorWorking divisor quotient).trans working_digits_pos
        (operand.div working_digits_pos factor)
    · cases h

/-- A conversion between an angle unit and radians rounds a product and a quotient. -/
theorem drift_of_mul_div {m d : Decimal} {ratio : ℚ} (hx : x.IsWorking) (hm : m.IsWorking)
    (hd : d.IsWorking) (nonzero : d.value ≠ 0) (same : m.value / d.value = ratio)
    (h : (do (← x.mul m).div d) = .ok y) :
    y.IsWorking ∧ Drift working.digits 2 y.value (x.value * ratio) := by
  obtain ⟨product, multiplied, quotient⟩ := bind_eq_ok.1 h
  have productWorking := Decimal.yields_mul _ _ _ multiplied
  refine ⟨Decimal.yields_div _ _ _ quotient, ?_⟩
  rw [← same, ← mul_div_assoc]
  exact (Decimal.drift_of_div productWorking hd nonzero quotient).trans working_digits_pos
    ((Decimal.drift_of_mul hx hm multiplied).div (n := 0) working_digits_pos
      (.refl working_digits_pos _))

/-- An angle in other units is converted to radians within two roundings. -/
theorem drift_toRadians {half : Decimal} {n : ℚ} (hx : x.IsWorking) (hh : half.IsWorking)
    (value : half.value = n) (nonzero : n ≠ 0) (h : toRadians half x = .ok y) :
    y.IsWorking ∧ Drift working.digits 2 y.value (x.value * (1 / n / Decimal.pi.value⁻¹)) := by
  subst value
  rw [toRadians] at h
  exact drift_of_mul_div hx Decimal.isWorking_pi hh nonzero (by rw [div_inv_eq_mul]; ring) h

/-- An angle in radians is converted to other units within two roundings. -/
theorem drift_ofRadians {half : Decimal} {n : ℚ} (hx : x.IsWorking) (hh : half.IsWorking)
    (value : half.value = n) (h : ofRadians half x = .ok y) :
    y.IsWorking ∧ Drift working.digits 2 y.value (x.value * (Decimal.pi.value⁻¹ / (1 / n))) := by
  subst value
  rw [ofRadians] at h
  refine drift_of_mul_div hx hh Decimal.isWorking_pi pi_value_pos.ne' ?_ h
  rw [one_div, div_inv_eq_mul, mul_comm, div_eq_mul_inv]

/-- A conversion is off by two roundings at most, whichever of the formulas it takes. -/
theorem drift_formula? {f : Decimal → Except ArithmeticError Decimal} (hx : x.IsWorking)
    (category : source.category ≠ .temperature) (found : formula? source target = some f)
    (h : f x = .ok y) :
    y.IsWorking ∧ Drift working.digits 2 y.value (x.value * (source.size / target.size)) := by
  have degrees : (180 : Decimal).value = 180 := value_ofNat 180
  have grads : (200 : Decimal).value = 200 := value_ofNat 200
  unfold formula? at found
  split at found
  case h_7 =>
    obtain rfl := Option.some.inj found
    exact drift_toRadians hx (by decide) degrees (by norm_num) h
  case h_8 =>
    obtain rfl := Option.some.inj found
    exact drift_ofRadians hx (by decide) degrees h
  case h_9 =>
    obtain rfl := Option.some.inj found
    exact drift_toRadians hx (by decide) grads (by norm_num) h
  case h_10 =>
    obtain rfl := Option.some.inj found
    exact drift_ofRadians hx (by decide) grads h
  case h_11 => cases found
  all_goals exact absurd rfl category

/-- A conversion of anything but a temperature multiplies by the ratio of two sizes, but for two
roundings. -/
theorem drift_convert? (hx : x.IsWorking) (category : source.category ≠ .temperature)
    (h : convert? source target x = some (.ok y)) :
    y.IsWorking ∧ Drift working.digits 2 y.value (x.value * (source.size / target.size)) := by
  unfold convert? at h
  split at h
  · rename_i answer found
    cases h
    obtain ⟨c, mem, converted⟩ := List.exists_of_findSome?_eq_some found
    exact c.drift_convert? mem hx converted
  · obtain ⟨f, found, applied⟩ := Option.map_eq_some_iff.1 h
    exact drift_formula? hx category found applied

end MeasureUnit

namespace Decimal

variable {x y : Decimal} {source target : String}

/-- Units given by name are converted as the units are. -/
theorem convert_eq_ok : x.convert source target = .ok y ↔
    ∃ a b, MeasureUnit.ofName? source = some a ∧ MeasureUnit.ofName? target = some b ∧
      MeasureUnit.convert? a b x = some (.ok y) := by
  unfold convert
  cases MeasureUnit.ofName? source with
  | none => simp [throw, throwThe, MonadExceptOf.throw]
  | some a =>
    cases MeasureUnit.ofName? target with
    | none => simp [throw, throwThe, MonadExceptOf.throw]
    | some b =>
      cases converted : MeasureUnit.convert? a b x with
      | none => simp [converted, throw, throwThe, MonadExceptOf.throw]
      | some answer =>
        cases answer with
        | error => simp [converted, liftM, monadLift, MonadLift.monadLift, Except.mapError]
        | ok z => simp [converted, liftM, monadLift, MonadLift.monadLift, Except.mapError]

end Decimal

end Calculator
