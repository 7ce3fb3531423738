import Calculator.Proofs.Measure.Conversion

/-!
# Conversions agree with each other

A conversion in two steps gives what the direct one gives, and a conversion there and back gives the
number again, up to the last digits. Speeds per hour are converted as the lengths that are covered
in an hour, with one exception: a foot per hour counts as three feet in an hour.
-/

namespace Calculator

open Precision (working)
open Decimal (working_digits_pos)

variable {x y z r s l : Decimal} {m n : ℕ} {p q : ℚ}

/-- Ten roundings to 136 digits do not reach the 134th digit. -/
theorem Drift.abs_sub_le_of_few (few : n ≤ 10) (h : Drift working.digits n p q) :
    |p - q| ≤ 10 ^ (-134 : ℤ) * |q| := by
  have count : (n : ℚ) ≤ 10 := by exact_mod_cast few
  have bound : 2 * n * roundoff working.digits ≤ 10 ^ (-134 : ℤ) := by
    have tenth : 10 * roundoff working.digits * 2 = 10 ^ (-134 : ℤ) := by
      norm_num [roundoff, working]
    linarith [mul_le_mul_of_nonneg_right count (roundoff_pos working.digits).le]
  have small : (10 : ℚ) ^ (-134 : ℤ) ≤ 1 := by norm_num
  exact (h.abs_sub_le working_digits_pos (bound.trans small)).trans
    (mul_le_mul_of_nonneg_right bound (abs_nonneg q))

/-- What is close to a multiple of a number by a factor that is not near one is far from the number
itself. -/
theorem far_of_close_to_multiple {k ε : ℚ} (small : ε ≤ 1 / 10) (nonzero : q ≠ 0)
    (far : 2 / 3 ≤ |k - 1|) (near : |k| ≤ 3) (close : |p - q * k| ≤ ε * |q * k|) :
    ε * |q| < |p - q| := by
  have pos := abs_pos.2 nonzero
  have gap : |q| * |k - 1| ≤ |p - q| + |p - q * k| := by
    rw [← abs_mul, show q * (k - 1) = (p - q) - (p - q * k) by ring]
    exact abs_sub _ _
  rw [abs_mul] at close
  have least := mul_le_mul_of_nonneg_left far pos.le
  have most := mul_le_mul_of_nonneg_left near pos.le
  have part := mul_le_mul_of_nonneg_right small pos.le
  have parts := mul_le_mul small most (mul_nonneg pos.le (abs_nonneg k)) (by norm_num)
  linarith

namespace Decimal

variable {u v w : String} {a b c : MeasureUnit}

/-- A conversion between units given by name, in terms of their sizes. -/
theorem drift_convert (hx : x.IsWorking) (ha : MeasureUnit.ofName? u = some a)
    (hb : MeasureUnit.ofName? v = some b) (category : a.category ≠ .temperature)
    (h : x.convert u v = .ok y) :
    y.IsWorking ∧ Drift working.digits 2 y.value (x.value * (a.size / b.size)) := by
  obtain ⟨a', b', ha', hb', converted⟩ := convert_eq_ok.1 h
  cases ha.symm.trans ha'
  cases hb.symm.trans hb'
  exact MeasureUnit.drift_convert? hx category converted

/-- Among the units of a category other than temperature, a conversion in two steps differs from
the direct one, and a conversion there and back from the number itself, by at most the part
`10 ^ -134`. -/
theorem convert_coherent (hx : x.IsWorking) (ha : MeasureUnit.ofName? u = some a)
    (hb : MeasureUnit.ofName? v = some b) (hc : MeasureUnit.ofName? w = some c)
    (category : a.category ≠ .temperature) (same : b.category = a.category) :
    (∀ y z r, x.convert u v = .ok y → y.convert v w = .ok z → x.convert u w = .ok r →
      |z.value - r.value| ≤ 10 ^ (-134 : ℤ) * |r.value|) ∧
    (∀ y z, x.convert u v = .ok y → y.convert v u = .ok z →
      |z.value - x.value| ≤ 10 ^ (-134 : ℤ) * |x.value|) := by
  have digit := working_digits_pos
  have other : b.category ≠ .temperature := same ▸ category
  have sizeA := (MeasureUnit.size_pos a).ne'
  have sizeB := (MeasureUnit.size_pos b).ne'
  constructor
  · intro y z r first second direct
    obtain ⟨hy, toB⟩ := drift_convert hx ha hb category first
    obtain ⟨-, toC⟩ := drift_convert hy hb hc other second
    obtain ⟨-, straight⟩ := drift_convert hx ha hc category direct
    have steps := toC.trans digit (toB.mul (n := 0) digit (.refl digit (b.size / c.size)))
    have ratio : x.value * (a.size / b.size) * (b.size / c.size) = x.value * (a.size / c.size) := by
      field_simp
    rw [ratio] at steps
    exact (steps.trans digit (straight.symm digit)).abs_sub_le_of_few (by decide)
  · intro y z there back
    obtain ⟨hy, toB⟩ := drift_convert hx ha hb category there
    obtain ⟨-, toA⟩ := drift_convert hy hb ha other back
    have steps := toA.trans digit (toB.mul (n := 0) digit (.refl digit (b.size / a.size)))
    have ratio : x.value * (a.size / b.size) * (b.size / a.size) = x.value := by field_simp
    rw [ratio] at steps
    exact steps.abs_sub_le_of_few (by decide)

/-- Inches to centimeters to kilometers, and to kilometers at once. -/
theorem convert_coherent_inch :
    (1270 : Decimal).IsWorking ∧ MeasureUnit.ofName? "in" = some .inch ∧
      MeasureUnit.ofName? "CM" = some .centimeter ∧ MeasureUnit.ofName? "km" = some .kilometer ∧
      ∃ y z r, (1270 : Decimal).convert "in" "CM" = .ok y ∧ y.convert "CM" "km" = .ok z ∧
        (1270 : Decimal).convert "in" "km" = .ok r ∧
        |z.value - r.value| ≤ 10 ^ (-134 : ℤ) * |r.value| := by
  have working : (1270 : Decimal).IsWorking := by decide
  have inch : MeasureUnit.ofName? "in" = some .inch := by decide +kernel
  have centimeter : MeasureUnit.ofName? "CM" = some .centimeter := by decide +kernel
  have kilometer : MeasureUnit.ofName? "km" = some .kilometer := by decide +kernel
  have first : (1270 : Decimal).convert "in" "CM" = .ok ⟨32258, -1, .inl (by decide)⟩ := by
    decide +kernel
  have second : (⟨32258, -1, .inl (by decide)⟩ : Decimal).convert "CM" "km" =
      .ok ⟨32258, -6, .inl (by decide)⟩ := by
    decide +kernel
  have direct : (1270 : Decimal).convert "in" "km" = .ok ⟨32258, -6, .inl (by decide)⟩ := by
    decide +kernel
  exact ⟨working, inch, centimeter, kilometer, _, _, _, first, second, direct,
    (convert_coherent working inch centimeter kilometer (by decide) rfl).1 _ _ _ first second
      direct⟩

end Decimal

namespace MeasureUnit

/-- How many of a unit of length its speed per hour counts as: a foot per hour stands for three feet
in an hour. -/
def lengthsPerHour : MeasureUnit → ℚ
  | .foot => 3
  | _ => 1

theorem lengthsPerHour_of_ne {a : MeasureUnit} (h : a ≠ .foot) : a.lengthsPerHour = 1 := by
  unfold lengthsPerHour
  split
  · exact absurd rfl h
  · rfl

/-- Two units agree in this exactly when neither is the foot. -/
theorem lengthsPerHour_ratio {a b : MeasureUnit} (distinct : a ≠ b) :
    (a ≠ .foot ∧ b ≠ .foot) ∧ a.lengthsPerHour / b.lengthsPerHour = 1 ∨
      ¬(a ≠ .foot ∧ b ≠ .foot) ∧ 2 / 3 ≤ |a.lengthsPerHour / b.lengthsPerHour - 1| ∧
        |a.lengthsPerHour / b.lengthsPerHour| ≤ 3 := by
  have foot : lengthsPerHour .foot = 3 := rfl
  by_cases footA : a = .foot
  · have other := lengthsPerHour_of_ne (footA ▸ distinct.symm)
    exact .inr ⟨by simp [footA], by rw [footA, foot, other]; norm_num,
      by rw [footA, foot, other]; norm_num⟩
  · have one := lengthsPerHour_of_ne footA
    by_cases footB : b = .foot
    · exact .inr ⟨by simp [footB], by rw [footB, foot, one]; norm_num [abs_of_neg],
        by rw [footB, foot, one]; norm_num⟩
    · exact .inl ⟨⟨footA, footB⟩, by rw [one, lengthsPerHour_of_ne footB, div_one]⟩

/-- The speeds per hour of lengths, and their sizes. -/
theorem size_perHour {a u : MeasureUnit} (length : a.category = .length)
    (found : ofName? (a.name ++ "/h") = some u) :
    u.category ≠ .temperature ∧ u.size = a.lengthsPerHour * a.size := by
  have each : ∀ a ∈ inCategory .length, ((ofName? (a.name ++ "/h")).all fun u =>
      decide (u.category ≠ .temperature ∧ u.size = a.lengthsPerHour * a.size)) = true := by
    decide +kernel
  have listed : a ∈ inCategory .length :=
    List.mem_filter.2 ⟨mem_all a, beq_iff_eq.2 length⟩
  have holds := each a listed
  rw [found] at holds
  exact of_decide_eq_true holds

theorem ofName?_name (a : MeasureUnit) : ofName? a.name = some a := by
  cases a <;> rfl

end MeasureUnit

namespace Decimal

variable {a b : MeasureUnit}

/-- A speed per hour is converted as the length, but for the feet. -/
theorem drift_perHour (hx : x.IsWorking) (lengthA : a.category = .length)
    (lengthB : b.category = .length)
    (speed : x.convert (a.name ++ "/h") (b.name ++ "/h") = .ok s)
    (length : x.convert a.name b.name = .ok l) :
    Drift working.digits 2 l.value (x.value * (a.size / b.size)) ∧
      Drift working.digits 4 s.value (l.value * (a.lengthsPerHour / b.lengthsPerHour)) := by
  have digit := working_digits_pos
  obtain ⟨u, v, hu, hv, -⟩ := convert_eq_ok.1 speed
  obtain ⟨categoryU, sizeU⟩ := MeasureUnit.size_perHour lengthA hu
  obtain ⟨-, sizeV⟩ := MeasureUnit.size_perHour lengthB hv
  have categoryA : a.category ≠ .temperature := by rw [lengthA]; decide
  obtain ⟨-, ofSpeed⟩ := drift_convert hx hu hv categoryU speed
  obtain ⟨-, ofLength⟩ := drift_convert hx (MeasureUnit.ofName?_name a)
    (MeasureUnit.ofName?_name b) categoryA length
  refine ⟨ofLength, ?_⟩
  have scaled := (ofLength.symm digit).mul (n := 0) digit
    (.refl digit (a.lengthsPerHour / b.lengthsPerHour))
  rw [sizeU, sizeV, mul_div_mul_comm, mul_comm (_ / _), ← mul_assoc] at ofSpeed
  exact ofSpeed.trans digit scaled

/-- Between the speeds per hour of two lengths a number is converted as between the lengths, up to
the part `10 ^ -134`, exactly if the number is zero or neither length is the foot. The foot per hour
is three times too long everywhere. -/
theorem convert_perHour (hx : x.IsWorking) (lengthA : a.category = .length)
    (lengthB : b.category = .length) (distinct : a ≠ b)
    (speed : x.convert (a.name ++ "/h") (b.name ++ "/h") = .ok s)
    (length : x.convert a.name b.name = .ok l) :
    (|s.value - l.value| ≤ 10 ^ (-134 : ℤ) * |l.value| ↔
      x.isZero = true ∨ a ≠ .foot ∧ b ≠ .foot) ∧
    |s.value - l.value * (a.lengthsPerHour / b.lengthsPerHour)| ≤
      10 ^ (-134 : ℤ) * |l.value * (a.lengthsPerHour / b.lengthsPerHour)| := by
  obtain ⟨ofLength, drift⟩ := drift_perHour hx lengthA lengthB speed length
  have close := drift.abs_sub_le_of_few (by decide)
  refine ⟨?_, close⟩
  have sizes : a.size / b.size ≠ 0 :=
    (div_pos (MeasureUnit.size_pos a) (MeasureUnit.size_pos b)).ne'
  have vanishes : l.value = 0 ↔ x.isZero = true := by
    rw [ofLength.eq_zero_iff working_digits_pos, mul_eq_zero, or_iff_left sizes, isZero_iff_value]
  rcases MeasureUnit.lengthsPerHour_ratio distinct with ⟨noFoot, one⟩ | ⟨aFoot, far, near⟩
  · rw [one, mul_one] at close
    exact iff_of_true close (.inr noFoot)
  · rw [or_iff_left aFoot, ← vanishes]
    constructor
    · intro same
      by_contra nonzero
      exact absurd same (not_le.2 (far_of_close_to_multiple (by norm_num) nonzero far near close))
    · intro zero
      rw [zero, zero_mul] at close
      rwa [zero]

/-- Half a mile in feet, and as feet per hour. -/
theorem convert_perHour_halfMile :
    let s : Decimal := ⟨15, -1, .inl (by decide)⟩
    let l : Decimal := ⟨5, -1, .inl (by decide)⟩
    (2640 : Decimal).IsWorking ∧ (2640 : Decimal).convert "ft/h" "mi/h" = .ok s ∧
      (2640 : Decimal).convert "ft" "mi" = .ok l ∧
      ¬|s.value - l.value| ≤ 10 ^ (-134 : ℤ) * |l.value| ∧
      |s.value - l.value * (3 / 1)| ≤ 10 ^ (-134 : ℤ) * |l.value * (3 / 1)| := by
  have working : (2640 : Decimal).IsWorking := by decide
  have speed : (2640 : Decimal).convert "ft/h" "mi/h" = .ok ⟨15, -1, .inl (by decide)⟩ := by
    decide +kernel
  have length : (2640 : Decimal).convert "ft" "mi" = .ok ⟨5, -1, .inl (by decide)⟩ := by
    decide +kernel
  obtain ⟨close, corrected⟩ := convert_perHour (a := .foot) (b := .mile) working rfl rfl
    (by decide) speed length
  exact ⟨working, speed, length, mt close.1 (by decide), corrected⟩

/-- A mile per hour is 1760 feet per hour, and a mile is 5280 feet. -/
theorem convert_perHour_foot :
    (1 : Decimal).IsWorking ∧ (1 : Decimal).convert "mi/h" "ft/h" = .ok 1760 ∧
      (1 : Decimal).convert "mi" "ft" = .ok 5280 ∧
      ¬|(1760 : Decimal).value - (5280 : Decimal).value| ≤
        10 ^ (-134 : ℤ) * |(5280 : Decimal).value| := by
  have speed : (1760 : Decimal).value = 1760 := MeasureUnit.value_ofNat 1760
  have length : (5280 : Decimal).value = 5280 := MeasureUnit.value_ofNat 5280
  refine ⟨by decide, by decide +kernel, by decide +kernel, ?_⟩
  rw [speed, length, not_le]
  norm_num [abs_of_neg]

end Decimal

end Calculator
