import Calculator.Proofs.Measure.Conversion

/-!
# Conversions of temperatures

A temperature scale has a zero of its own and a size of its degrees, so an exact conversion between
two scales is an affine map, and these maps compose. A formula computes one of them in a few rounded
steps. `Tracks` follows such a computation: each step rounds its result, which is never much larger
than the number or the offsets of the scales, and stretches what the steps before it have lost. The
losses are absolute, so digits that cancel near an offset do not matter.
-/

namespace Calculator

open Precision (working)
open Decimal (working_digits_pos)

namespace MeasureUnit

/-! ## Scales -/

/-- The kelvins in a degree of the scale. -/
def kelvinsPerDegree : MeasureUnit → ℚ
  | .fahrenheit => 5 / 9
  | _ => 1

/-- The degrees of the scale from absolute zero up to its own zero. -/
def scaleZero : MeasureUnit → ℚ
  | .celsius => 27315 / 100
  | .fahrenheit => 45967 / 100
  | _ => 0

/-- What the second scale shows where the first shows `q`. -/
def reading (a b : MeasureUnit) (q : ℚ) : ℚ :=
  (q + a.scaleZero) * (a.kelvinsPerDegree / b.kelvinsPerDegree) - b.scaleZero

variable {a b c : MeasureUnit} {p q s k m : ℚ} {x y z w : Decimal}

/-- A degree is some part of a kelvin. -/
theorem kelvinsPerDegree_pos (a : MeasureUnit) : 0 < a.kelvinsPerDegree := by
  unfold kelvinsPerDegree
  split <;> norm_num

/-- The degree of Fahrenheit is the smallest. -/
theorem kelvinsPerDegree_bounds (a : MeasureUnit) :
    5 / 9 ≤ a.kelvinsPerDegree ∧ a.kelvinsPerDegree ≤ 1 := by
  unfold kelvinsPerDegree
  split <;> norm_num

/-- No scale has its zero far from the others, in its own degrees. -/
theorem scaleZero_bounds (a : MeasureUnit) : 0 ≤ a.scaleZero ∧ a.scaleZero ≤ 460 := by
  unfold scaleZero
  split <;> norm_num

@[simp] theorem reading_self (a : MeasureUnit) (q : ℚ) : reading a a q = q := by
  have pos := (kelvinsPerDegree_pos a).ne'
  unfold reading
  rw [div_self pos]
  ring

/-- Readings by way of another scale are readings. -/
theorem reading_reading (a b c : MeasureUnit) (q : ℚ) :
    reading b c (reading a b q) = reading a c q := by
  have posB := (kelvinsPerDegree_pos b).ne'
  have posC := (kelvinsPerDegree_pos c).ne'
  unfold reading
  field_simp
  ring

/-- No degree is more than nine fifths of another. -/
theorem ratio_bounds (a b : MeasureUnit) :
    0 < a.kelvinsPerDegree / b.kelvinsPerDegree ∧
      a.kelvinsPerDegree / b.kelvinsPerDegree ≤ 9 / 5 := by
  obtain ⟨-, most⟩ := kelvinsPerDegree_bounds a
  obtain ⟨least, -⟩ := kelvinsPerDegree_bounds b
  have pos := kelvinsPerDegree_pos b
  refine ⟨div_pos (kelvinsPerDegree_pos a) pos, ?_⟩
  rw [div_le_iff₀ pos]
  linarith

/-- A degree of one scale is at most two of another. -/
theorem abs_reading_sub_le (a b : MeasureUnit) (p q : ℚ) :
    |reading a b p - reading a b q| ≤ 2 * |p - q| := by
  obtain ⟨pos, most⟩ := ratio_bounds a b
  have difference : reading a b p - reading a b q =
      (a.kelvinsPerDegree / b.kelvinsPerDegree) * (p - q) := by
    unfold reading
    ring
  rw [difference, abs_mul, abs_of_pos pos]
  exact mul_le_mul_of_nonneg_right (by linarith) (abs_nonneg _)

/-- A reading is not much larger than the one it is taken from. -/
theorem abs_reading_le (a b : MeasureUnit) (q : ℚ) : |reading a b q| ≤ 2 * (|q| + 1000) := by
  obtain ⟨lowA, highA⟩ := scaleZero_bounds a
  obtain ⟨lowB, highB⟩ := scaleZero_bounds b
  obtain ⟨pos, most⟩ := ratio_bounds a b
  have front : |q + a.scaleZero| ≤ |q| + 460 := by
    refine (abs_add_le _ _).trans ?_
    rw [abs_of_nonneg lowA]
    linarith
  have scaled : |(q + a.scaleZero) * (a.kelvinsPerDegree / b.kelvinsPerDegree)| ≤
      (|q| + 460) * (9 / 5) := by
    rw [abs_mul, abs_of_pos pos]
    exact mul_le_mul front most pos.le (by positivity)
  have size := abs_nonneg q
  unfold reading
  refine (abs_sub _ _).trans ?_
  rw [abs_of_nonneg lowB]
  linarith

/-! ## Rounded steps -/

/-- A computed number is a working value that misses the exact one by at most `k` roundings of a
number of size `s`, and the exact one is at most `m` times as large as `s`. -/
structure Tracks (s k m : ℚ) (y : Decimal) (q : ℚ) : Prop where
  isWorking : y.IsWorking
  size : |q| ≤ m * s
  close : |y.value - q| ≤ k * (roundoff working.digits * s)

namespace Tracks

/-- A number that nothing was computed of. -/
theorem refl (hx : x.IsWorking) (bound : |x.value| ≤ s) : Tracks s 0 1 x x.value where
  isWorking := hx
  size := by rwa [one_mul]
  close := by rw [sub_self, abs_zero, zero_mul]

/-- One more step: the exact map stretches distances `l` times, and its rounded result is kept. -/
theorem step {l m' r r' : ℚ} (h : Tracks s k m y q) (hz : z.IsWorking)
    (stretch : |r' - r| = l * |y.value - q|) (size : |r| ≤ m' * s) (factor : 0 ≤ l)
    (rounded : z.value = nearest working.digits r') :
    Tracks s (m' + 2 * (l * k)) m' z r where
  isWorking := hz
  size := size
  close := by
    have unit := roundoff_pos working.digits
    have small := (roundoff_lt_one working_digits_pos).le
    have before : |r' - r| ≤ l * (k * (roundoff working.digits * s)) :=
      stretch.trans_le (mul_le_mul_of_nonneg_left h.close factor)
    have now : |z.value - r'| ≤ roundoff working.digits * |r'| :=
      rounded ▸ abs_nearest_sub_le
    have large : |r'| ≤ m' * s + |r' - r| := by
      have triangle := abs_sub_abs_le_abs_sub r' r
      linarith
    calc |z.value - r| ≤ |z.value - r'| + |r' - r| := abs_sub_le _ _ _
      _ ≤ roundoff working.digits * (m' * s + |r' - r|) + |r' - r| := by
        have scaled := mul_le_mul_of_nonneg_left large unit.le
        linarith
      _ ≤ roundoff working.digits * (m' * s) + 2 * |r' - r| := by
        have part := mul_le_mul_of_nonneg_right small (abs_nonneg (r' - r))
        linarith
      _ ≤ (m' + 2 * (l * k)) * (roundoff working.digits * s) := by
        linarith

/-- The losses and the size may be told too large. -/
theorem mono {k' m' : ℚ} (h : Tracks s k m y q) (nonneg : 0 ≤ s) (losses : k ≤ k') (size : m ≤ m') :
    Tracks s k' m' y q where
  isWorking := h.isWorking
  size := h.size.trans (mul_le_mul_of_nonneg_right size nonneg)
  close := by
    have unit := mul_nonneg (roundoff_pos working.digits).le nonneg
    exact h.close.trans (mul_le_mul_of_nonneg_right losses unit)

/-- A sum has the losses of both operands and one of its own, and so has a difference. -/
theorem add (h : Tracks s k m y q) (hw : w.IsWorking) (bound : |w.value| ≤ s)
    (sum : y.add w = .ok z) : Tracks s (m + 1 + 2 * (1 * k)) (m + 1) z (q + w.value) := by
  have answer := Decimal.add_answers h.isWorking hw
  rw [reported_eq_ok.1 sum] at answer
  refine h.step (Decimal.yields_add _ _ _ sum) ?_ ?_ zero_le_one answer.value_eq
  · rw [one_mul, add_sub_add_right_eq_sub]
  · refine (abs_add_le _ _).trans ?_
    rw [add_mul, one_mul]
    exact add_le_add h.size bound

theorem sub (h : Tracks s k m y q) (hw : w.IsWorking) (bound : |w.value| ≤ s)
    (difference : y.sub w = .ok z) : Tracks s (m + 1 + 2 * (1 * k)) (m + 1) z (q - w.value) := by
  have answer := Decimal.sub_answers h.isWorking hw
  rw [reported_eq_ok.1 difference] at answer
  refine h.step (Decimal.yields_sub _ _ _ difference) ?_ ?_ zero_le_one answer.value_eq
  · rw [one_mul, sub_sub_sub_cancel_right]
  · refine (abs_sub _ _).trans ?_
    rw [add_mul, one_mul]
    exact add_le_add h.size bound

/-- A factor multiplies what was lost before. -/
theorem mul (h : Tracks s k m y q) (hw : w.IsWorking) (product : y.mul w = .ok z) :
    Tracks s (|w.value| * m + 2 * (|w.value| * k)) (|w.value| * m) z (q * w.value) := by
  have answer := Decimal.mul_answers h.isWorking hw
  rw [reported_eq_ok.1 product] at answer
  refine h.step (Decimal.yields_mul _ _ _ product) ?_ ?_ (abs_nonneg _) answer.value_eq
  · rw [← sub_mul, abs_mul, mul_comm]
  · rw [abs_mul, mul_comm, mul_assoc]
    exact mul_le_mul_of_nonneg_left h.size (abs_nonneg _)

/-- A divisor divides what was lost before. -/
theorem div (h : Tracks s k m y q) (hw : w.IsWorking) (nonzero : w.value ≠ 0)
    (quotient : y.div w = .ok z) :
    Tracks s (|w.value|⁻¹ * m + 2 * (|w.value|⁻¹ * k)) (|w.value|⁻¹ * m) z (q / w.value) := by
  have answer := Decimal.div_answers h.isWorking hw nonzero
  rw [reported_eq_ok.1 quotient] at answer
  refine h.step (Decimal.yields_div _ _ _ quotient) ?_ ?_ (by positivity) answer.value_eq
  · rw [← sub_div, abs_div, div_eq_inv_mul]
  · rw [abs_div, div_eq_inv_mul, mul_assoc]
    exact mul_le_mul_of_nonneg_left h.size (by positivity)

end Tracks

/-! ## The formulas -/

theorem value_celsiusZero : celsiusZero.value = 27315 / 100 := by
  rw [celsiusZero, Decimal.value_ofParts]
  norm_num

theorem value_fahrenheitZero : fahrenheitZero.value = 45967 / 100 := by
  rw [fahrenheitZero, Decimal.value_ofParts]
  norm_num

theorem value_fahrenheitDegrees : (Decimal.ofParts 18 (-1)).value = 9 / 5 := by
  rw [Decimal.value_ofParts]
  norm_num

section

variable (enough : 1000 ≤ s)

include enough

theorem abs_celsiusZero_le : |celsiusZero.value| ≤ s := by
  rw [value_celsiusZero, abs_of_pos (by norm_num)]
  linarith

/-- Adding the zero of a scale is a single rounding, of a sum that may be twice as large. -/
theorem tracks_celsiusToKelvin (h : Tracks s 0 1 x q) (converted : celsiusToKelvin x = .ok y) :
    Tracks s 2 2 y (q + 27315 / 100) := by
  have sum := h.add (by decide) (abs_celsiusZero_le enough) converted
  rw [value_celsiusZero] at sum
  exact sum.mono (by linarith) (by norm_num) (by norm_num)

theorem tracks_kelvinToCelsius (h : Tracks s 0 1 x q) (converted : kelvinToCelsius x = .ok y) :
    Tracks s 2 2 y (q - 27315 / 100) := by
  have difference := h.sub (by decide) (abs_celsiusZero_le enough) converted
  rw [value_celsiusZero] at difference
  exact difference.mono (by linarith) (by norm_num) (by norm_num)

/-- Two roundings more, the first of which is of a larger number. -/
theorem tracks_celsiusToFahrenheit (h : Tracks s 2 2 x q)
    (converted : celsiusToFahrenheit x = .ok y) : Tracks s 30 5 y (q * (9 / 5) + 32) := by
  obtain ⟨product, multiplied, added⟩ := bind_eq_ok.1 converted
  have offset : (32 : Decimal).value = 32 := value_ofNat 32
  have scaled := h.mul (by decide) multiplied
  have sum := scaled.add (by decide) (by rw [offset, abs_of_pos (by norm_num)]; linarith) added
  rw [value_fahrenheitDegrees, abs_of_pos (by norm_num), offset] at sum
  exact sum.mono (by linarith) (by norm_num) (by norm_num)

/-- Three roundings, the first two of which are divided by nine again. -/
theorem tracks_fahrenheitToKelvin (h : Tracks s 0 1 x q)
    (converted : fahrenheitToKelvin x = .ok y) :
    Tracks s 8 2 y ((q + 45967 / 100) * 5 / 9) := by
  obtain ⟨sum, added, scaled⟩ := bind_eq_ok.1 converted
  obtain ⟨product, multiplied, divided⟩ := bind_eq_ok.1 scaled
  have five : (5 : Decimal).value = 5 := value_ofNat 5
  have nine : (9 : Decimal).value = 9 := value_ofNat 9
  have bound : |fahrenheitZero.value| ≤ s := by
    rw [value_fahrenheitZero, abs_of_pos (by norm_num)]
    linarith
  have raised := h.add (by decide) bound added
  have stretched := raised.mul (by decide) multiplied
  have quotient := stretched.div (by decide) (by rw [nine]; norm_num) divided
  rw [value_fahrenheitZero, five, nine, abs_of_pos (by norm_num),
    abs_of_pos (by norm_num)] at quotient
  exact quotient.mono (by linarith) (by norm_num) (by norm_num)

/-- By way of kelvins there is one rounding more. -/
theorem tracks_fahrenheitToCelsius (h : Tracks s 0 1 x q)
    (converted : fahrenheitToCelsius x = .ok y) :
    Tracks s 19 3 y ((q + 45967 / 100) * 5 / 9 - 27315 / 100) := by
  obtain ⟨kelvins, raised, lowered⟩ := bind_eq_ok.1 converted
  have difference := (tracks_fahrenheitToKelvin enough h raised).sub (by decide)
    (abs_celsiusZero_le enough) lowered
  rw [value_celsiusZero] at difference
  exact difference.mono (by linarith) (by norm_num) (by norm_num)

/-- By way of degrees of Celsius there is one rounding more. -/
theorem tracks_kelvinToFahrenheit (h : Tracks s 0 1 x q)
    (converted : kelvinToFahrenheit x = .ok y) :
    Tracks s 30 5 y ((q - 27315 / 100) * (9 / 5) + 32) := by
  obtain ⟨degrees, lowered, scaled⟩ := bind_eq_ok.1 converted
  exact tracks_celsiusToFahrenheit enough (tracks_kelvinToCelsius enough h lowered) scaled

/-- Every formula between two scales gives what the second one shows, up to thirty roundings of a
number of the size `s`. -/
theorem tracks_formula? {f : Decimal → Except ArithmeticError Decimal} (h : Tracks s 0 1 x q)
    (temperature : a.category = .temperature) (found : formula? a b = some f)
    (converted : f x = .ok y) : Tracks s 30 5 y (reading a b q) := by
  have nonneg : 0 ≤ s := by linarith
  unfold formula? at found
  split at found
  case h_1 =>
    obtain rfl := Option.some.inj found
    have shown : reading .celsius .fahrenheit q = q * (9 / 5) + 32 := by
      norm_num [reading, kelvinsPerDegree, scaleZero]
      ring
    have start : Tracks s 2 2 x q := h.mono nonneg (by norm_num) (by norm_num)
    rw [shown]
    exact tracks_celsiusToFahrenheit enough start converted
  case h_2 =>
    obtain rfl := Option.some.inj found
    have shown : reading .celsius .kelvin q = q + 27315 / 100 := by
      norm_num [reading, kelvinsPerDegree, scaleZero]
    rw [shown]
    exact (tracks_celsiusToKelvin enough h converted).mono nonneg (by norm_num) (by norm_num)
  case h_3 =>
    obtain rfl := Option.some.inj found
    have shown : reading .fahrenheit .celsius q = (q + 45967 / 100) * 5 / 9 - 27315 / 100 := by
      norm_num [reading, kelvinsPerDegree, scaleZero]
      ring
    rw [shown]
    exact (tracks_fahrenheitToCelsius enough h converted).mono nonneg (by norm_num) (by norm_num)
  case h_4 =>
    obtain rfl := Option.some.inj found
    have shown : reading .fahrenheit .kelvin q = (q + 45967 / 100) * 5 / 9 := by
      norm_num [reading, kelvinsPerDegree, scaleZero]
      ring
    rw [shown]
    exact (tracks_fahrenheitToKelvin enough h converted).mono nonneg (by norm_num) (by norm_num)
  case h_5 =>
    obtain rfl := Option.some.inj found
    have shown : reading .kelvin .celsius q = q - 27315 / 100 := by
      norm_num [reading, kelvinsPerDegree, scaleZero]
    rw [shown]
    exact (tracks_kelvinToCelsius enough h converted).mono nonneg (by norm_num) (by norm_num)
  case h_6 =>
    obtain rfl := Option.some.inj found
    have shown : reading .kelvin .fahrenheit q = (q - 27315 / 100) * (9 / 5) + 32 := by
      norm_num [reading, kelvinsPerDegree, scaleZero]
      ring
    rw [shown]
    exact tracks_kelvinToFahrenheit enough h converted
  case h_11 => cases found
  all_goals cases temperature

end

/-- No constant factor leads from or to a temperature. -/
theorem linear_of_temperature (temperature : a.category = .temperature) (b : MeasureUnit)
    (x : Decimal) : linearConversions.findSome? (·.convert? a b x) = none := by
  have others : ∀ c ∈ linearConversions,
      c.source.category ≠ .temperature ∧ c.target.category ≠ .temperature := by decide
  rw [List.findSome?_eq_none_iff]
  intro c mem
  obtain ⟨source, target⟩ := others c mem
  unfold LinearConversion.convert?
  rw [if_neg, if_neg]
  · rintro ⟨-, same⟩
    exact target (same ▸ temperature)
  · rintro ⟨same, -⟩
    exact source (same ▸ temperature)

/-- A conversion of a temperature is what the other scale shows, up to thirty roundings. -/
theorem tracks_convert? (hx : x.IsWorking) (temperature : a.category = .temperature)
    (converted : convert? a b x = some (.ok y)) :
    Tracks (|x.value| + 1000) 30 5 y (reading a b x.value) := by
  have size := abs_nonneg x.value
  unfold convert? at converted
  rw [linear_of_temperature temperature] at converted
  obtain ⟨f, found, applied⟩ := Option.map_eq_some_iff.1 converted
  exact tracks_formula? (by linarith) (.refl hx (by linarith)) temperature found applied

end MeasureUnit

namespace Decimal

open MeasureUnit (celsiusZero reading reading_reading abs_reading_sub_le abs_reading_le)

variable {x y z : Decimal} {u v w : String} {a b c : MeasureUnit}

/-- A conversion between units given by name keeps to the worst of the formulas. -/
theorem tracks_convert (hx : x.IsWorking) (ha : MeasureUnit.ofName? u = some a)
    (hb : MeasureUnit.ofName? v = some b) (temperature : a.category = .temperature)
    (converted : x.convert u v = .ok y) :
    MeasureUnit.Tracks (|x.value| + 1000) 30 5 y (reading a b x.value) := by
  obtain ⟨a', b', ha', hb', answer⟩ := convert_eq_ok.1 converted
  cases ha.symm.trans ha'
  cases hb.symm.trans hb'
  exact MeasureUnit.tracks_convert? hx temperature answer

/-- Two conversions, one after the other, miss what the last scale shows by a few hundred
roundings. -/
theorem abs_convert_convert_sub_le (hx : x.IsWorking) (ha : MeasureUnit.ofName? u = some a)
    (hb : MeasureUnit.ofName? v = some b) (hc : MeasureUnit.ofName? w = some c)
    (temperature : a.category = .temperature) (other : b.category = .temperature)
    (first : x.convert u v = .ok y) (second : y.convert v w = .ok z) :
    |z.value - reading a c x.value| ≤
      200 * (roundoff working.digits * (|x.value| + 1000)) := by
  have there := tracks_convert hx ha hb temperature first
  have back := tracks_convert there.isWorking hb hc other second
  have unit := roundoff_pos working.digits
  have size := abs_nonneg x.value
  have stretched := abs_reading_sub_le b c y.value (reading a b x.value)
  rw [reading_reading] at stretched
  -- The number between the two is not much larger than the first one.
  have between : |y.value| + 1000 ≤ 4 * (|x.value| + 1000) := by
    have shown := abs_reading_le a b x.value
    have few : 30 * roundoff working.digits ≤ 1 := by
      rw [roundoff_working]
      norm_num
    have lost := mul_le_mul_of_nonneg_right few (by linarith : 0 ≤ |x.value| + 1000)
    have triangle := abs_sub_abs_le_abs_sub y.value (reading a b x.value)
    linarith [there.close]
  have later := mul_le_mul_of_nonneg_left between unit.le
  have grain : 0 ≤ roundoff working.digits * (|x.value| + 1000) :=
    mul_nonneg unit.le (by linarith)
  calc |z.value - reading a c x.value|
      ≤ |z.value - reading b c y.value| + |reading b c y.value - reading a c x.value| :=
        abs_sub_le _ _ _
    _ ≤ 30 * (roundoff working.digits * (|y.value| + 1000)) +
          2 * (30 * (roundoff working.digits * (|x.value| + 1000))) := by
        linarith [back.close, there.close]
    _ ≤ 200 * (roundoff working.digits * (|x.value| + 1000)) := by linarith

/-- Conversions of temperatures close up. By way of another scale a number is shown as on the direct
way, and on its own scale it is shown as itself, up to a part `10 ^ -130` of the number and the
offsets. The scales in a conversion that succeeds are different. -/
theorem convert_temperature_closes (hx : x.IsWorking) (ha : MeasureUnit.ofName? u = some a)
    (hb : MeasureUnit.ofName? v = some b) (hc : MeasureUnit.ofName? w = some c)
    (temperature : a.category = .temperature) (other : b.category = .temperature) :
    (∀ y z r, x.convert u v = .ok y → y.convert v w = .ok z → x.convert u w = .ok r →
      |z.value - r.value| ≤ 10 ^ (-130 : ℤ) * (|x.value| + 1000)) ∧
    (c = a → ∀ y z, x.convert u v = .ok y → y.convert v w = .ok z →
      |z.value - x.value| ≤ 10 ^ (-130 : ℤ) * (|x.value| + 1000)) := by
  have scale : 0 ≤ |x.value| + 1000 := by positivity
  have few : 230 * roundoff working.digits ≤ 10 ^ (-130 : ℤ) := by
    rw [roundoff_working]
    norm_num
  have bound := mul_le_mul_of_nonneg_right few scale
  have grain : 0 ≤ roundoff working.digits * (|x.value| + 1000) :=
    mul_nonneg (roundoff_pos working.digits).le scale
  constructor
  · intro y z r first second direct
    have indirect := abs_convert_convert_sub_le hx ha hb hc temperature other first second
    have straight := (tracks_convert hx ha hc temperature direct).close
    rw [abs_sub_comm] at straight
    calc |z.value - r.value|
        ≤ |z.value - reading a c x.value| + |reading a c x.value - r.value| := abs_sub_le _ _ _
      _ ≤ 10 ^ (-130 : ℤ) * (|x.value| + 1000) := by linarith
  · rintro rfl y z there back
    have returned := abs_convert_convert_sub_le hx ha hb hc temperature other there back
    rw [MeasureUnit.reading_self] at returned
    linarith

/-- A temperature next to the zero of its scale is lost in kelvins: it comes back as zero, and is
thirty-two degrees Fahrenheit by either way. -/
theorem convert_temperature_closes_near_zero :
    let x : Decimal := ⟨1, -200, .inl (by decide)⟩
    x.IsWorking ∧ MeasureUnit.ofName? "C" = some .celsius ∧
      MeasureUnit.ofName? "k" = some .kelvin ∧ MeasureUnit.ofName? "f" = some .fahrenheit ∧
      x.convert "C" "k" = .ok celsiusZero ∧ celsiusZero.convert "k" "C" = .ok zero ∧
      |zero.value - x.value| ≤ 10 ^ (-130 : ℤ) * (|x.value| + 1000) ∧
      celsiusZero.convert "k" "f" = .ok 32 ∧ x.convert "C" "f" = .ok 32 ∧
      |(32 : Decimal).value - (32 : Decimal).value| ≤ 10 ^ (-130 : ℤ) * (|x.value| + 1000) := by
  intro x
  have working : x.IsWorking := by decide
  have celsius : MeasureUnit.ofName? "C" = some .celsius := by decide +kernel
  have kelvin : MeasureUnit.ofName? "k" = some .kelvin := by decide +kernel
  have fahrenheit : MeasureUnit.ofName? "f" = some .fahrenheit := by decide +kernel
  have there : x.convert "C" "k" = .ok celsiusZero := by decide +kernel
  have back : celsiusZero.convert "k" "C" = .ok zero := by decide +kernel
  have further : celsiusZero.convert "k" "f" = .ok 32 := by decide +kernel
  have direct : x.convert "C" "f" = .ok 32 := by decide +kernel
  have returned := (convert_temperature_closes working celsius kelvin celsius rfl rfl).2 rfl
  have closed := (convert_temperature_closes working celsius kelvin fahrenheit rfl rfl).1
  exact ⟨working, celsius, kelvin, fahrenheit, there, back, returned _ _ there back, further,
    direct, closed _ _ _ there further direct⟩

end Decimal

end Calculator
