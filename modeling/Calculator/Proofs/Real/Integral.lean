import Calculator.Proofs.Decimal.Integral
import Calculator.Proofs.Precision.Exact
import Calculator.Proofs.Real.Closure

/-!
# Integral parts of working values

Every integer next to a working value is a working value, and so is what the number has beyond its
integer part. So the corrections that lead from the nearest integer to the integer part, and from
there to the integers below and above, need no rounding, and they end at the integers of the same
names.
-/

namespace Calculator

open Precision (working exponentBound InRange Answers)

namespace Decimal

variable {x : Decimal}

/-! ## The integers next to a number -/

/-- An integer of at most 136 digits is a working value. -/
theorem isWorking_of_value {n : ℤ} (whole : x.value = n) (few : |n| < 10 ^ 136) : x.IsWorking := by
  have self : x = ofInt n := value_injective (by rw [whole, value_ofInt])
  rw [Int.abs_eq_natAbs] at few
  exact self ▸ isWorking_ofInt (by exact_mod_cast few)

/-- A number with a fraction has a digit less before the point. -/
theorem IsWorking.abs_lt_of_fraction (hx : x.IsWorking) (fraction : x.exponent < 0) :
    |x.value| < 10 ^ 135 := by
  have few : x.coefficient.natAbs < 10 ^ 136 := (digits_le_iff working_digits_pos).1 hx.digits_le
  have unit := ten_zpow_pos x.exponent
  have tenth : (10 : ℚ) ^ x.exponent ≤ 10 ^ (-1 : ℤ) :=
    zpow_le_zpow_right₀ (by norm_num) (by omega)
  have size : |(x.coefficient : ℚ)| < 10 ^ 136 := by
    rw [← Int.cast_abs, Int.abs_eq_natAbs]
    exact_mod_cast few
  rw [value, abs_mul, abs_of_pos unit]
  calc |(x.coefficient : ℚ)| * 10 ^ x.exponent ≤ |(x.coefficient : ℚ)| * 10 ^ (-1 : ℤ) :=
        mul_le_mul_of_nonneg_left tenth (abs_nonneg _)
    _ < 10 ^ 136 * 10 ^ (-1 : ℤ) := mul_lt_mul_of_pos_right size (ten_zpow_pos _)
    _ = 10 ^ 135 := by norm_num

/-- An integer next to a working value is one itself. -/
theorem IsWorking.ofInt_near (hx : x.IsWorking) {n : ℤ} (near : |x.value - n| < 1) :
    (ofInt n).IsWorking := by
  rcases le_or_gt 0 x.exponent with whole | fraction
  · obtain ⟨m, integral⟩ := exponent_nonneg_iff.1 whole
    have same : m = n := eq_of_abs_sub_lt_one (by rwa [← integral])
    have self : ofInt n = x := value_injective (by rw [value_ofInt, integral, same])
    rwa [self]
  · have size := hx.abs_lt_of_fraction fraction
    have bound : |(n : ℚ)| < 10 ^ 136 := by
      have triangle := abs_sub_abs_le_abs_sub (n : ℚ) x.value
      rw [abs_sub_comm] at triangle
      linarith
    refine isWorking_ofInt ?_
    rw [← Int.cast_abs, Int.abs_eq_natAbs] at bound
    exact_mod_cast bound

/-- What a number has beyond its integer part stands at the same exponent, with a coefficient that is
not larger. The exponent is not small, unless there is no integer part. -/
theorem IsWorking.exists_rest (hx : x.IsWorking) :
    ∃ f : Decimal, f.IsWorking ∧ f.value = x.value - integerPart x.value := by
  rcases le_or_gt 0 x.exponent with whole | fraction
  · obtain ⟨m, integral⟩ := exponent_nonneg_iff.1 whole
    exact ⟨zero, isWorking_zero, by rw [value_zero, integral, integerPart_intCast, sub_self]⟩
  · have few : x.coefficient.natAbs < 10 ^ 136 := (digits_le_iff working_digits_pos).1 hx.digits_le
    have power : 0 < 10 ^ (-x.exponent).toNat := by positivity
    have part : integerPart x.value = x.coefficient.tdiv (10 ^ (-x.exponent).toNat : ℕ) := by
      rw [value_eq_div fraction, ← integerPart_div, Int.cast_natCast]
    rcases lt_or_ge x.coefficient.natAbs (10 ^ (-x.exponent).toNat) with short | long
    · have none : integerPart x.value = 0 := by
        rw [part, ← Int.natAbs_eq_zero, Int.natAbs_tdiv]
        exact Nat.div_eq_of_lt short
      exact ⟨x, hx, by rw [none, Int.cast_zero, sub_zero]⟩
    · have places : (-x.exponent).toNat < 136 :=
        (Nat.pow_lt_pow_iff_right (by decide)).1 (long.trans_lt few)
      have law := Int.mul_tdiv_add_tmod x.coefficient (10 ^ (-x.exponent).toNat : ℕ)
      have size := Int.natAbs_tmod x.coefficient (10 ^ (-x.exponent).toNat : ℕ)
      rw [← part] at law
      generalize x.coefficient.tmod (10 ^ (-x.exponent).toNat : ℕ) = r at law size
      have shorter : r.natAbs < 10 ^ 136 := by
        rw [size]
        exact (Nat.mod_le _ _).trans_lt few
      refine ⟨ofParts r x.exponent, isWorking_iff.2 ⟨?_, ?_⟩, ?_⟩
      · exact digits_ofParts_le shorter.le working_digits_pos
      · rw [value_ofParts]
        by_cases vanishes : r = 0
        · exact .inl (by rw [vanishes, Int.cast_zero, zero_mul])
        · have bound : exponentBound = 999999 := rfl
          have some := digitCount_pos r.natAbs
          have count := (digitCount_le_iff (by decide)).2 shorter
          refine .inr ?_
          rw [log_abs vanishes]
          omega
      · have unit : (((10 ^ (-x.exponent).toNat : ℕ) : ℤ) : ℚ) * 10 ^ x.exponent = 1 := by
          rw [zpow_exponent_of_fraction fraction, Int.cast_natCast]
          exact mul_inv_cancel₀ (by exact_mod_cast power.ne')
        have total : x.value = (((10 ^ (-x.exponent).toNat : ℕ) : ℤ) * integerPart x.value + r : ℤ) *
            10 ^ x.exponent := by rw [law, value]
        rw [value_ofParts]
        calc (r : ℚ) * 10 ^ x.exponent
            = (((10 ^ (-x.exponent).toNat : ℕ) : ℤ) * integerPart x.value + r : ℤ) *
                10 ^ x.exponent - integerPart x.value *
                (((10 ^ (-x.exponent).toNat : ℕ) : ℤ) * 10 ^ x.exponent) := by
              push_cast
              ring
          _ = x.value - integerPart x.value := by rw [← total, unit, mul_one]

/-! ## The nearest integer -/

/-- A number with a fraction is rounded to an integer of few digits. -/
theorem IsWorking.round_eq (hx : x.IsWorking) :
    x.round = .ok (ofInt (nearestInteger x.value)) := by
  have near : (ofInt (nearestInteger x.value)).IsWorking :=
    hx.ofInt_near ((abs_sub_nearestInteger_le _).trans_lt (by norm_num))
  unfold round Precision.toIntegral
  split
  · rename_i whole
    obtain ⟨m, integral⟩ := exponent_nonneg_iff.1 whole
    have self : x = ofInt (nearestInteger x.value) :=
      value_injective (by rw [value_ofInt, integral, nearestInteger_intCast])
    exact congrArg Except.ok self
  · rename_i fraction
    split
    · rename_i small
      have none : nearestInteger x.value = 0 := by
        have off := abs_sub_nearestInteger_le x.value
        have size : |x.value| < 1 / 10 := by
          by_cases vanishes : x.value = 0
          · rw [vanishes, abs_zero]
            norm_num
          · calc |x.value| < 10 ^ (x.adjusted + 1) := abs_value_lt vanishes
              _ ≤ 10 ^ (-1 : ℤ) := zpow_le_zpow_right₀ (by norm_num) (by omega)
              _ = 1 / 10 := by norm_num
        refine eq_of_abs_sub_lt_one ?_
        have triangle := abs_sub_abs_le_abs_sub (nearestInteger x.value : ℚ) x.value
        rw [abs_sub_comm] at triangle
        rw [Int.cast_zero, sub_zero]
        linarith
      rw [none]
      rfl
    · have power : 0 < 10 ^ (-x.exponent).toNat := by positivity
      have nearest : nearestInteger x.value =
          x.coefficient.sign * roundDiv x.coefficient.natAbs (tenPow (-x.exponent).toNat) := by
        rw [value_eq_div (not_le.1 fraction), nearestInteger_div _ power, tenPow_eq]
      have answer := Precision.roundParts_answers (p := working) (e := 0)
        (c := nearestInteger x.value) working_digits_pos
      rw [zpow_zero, mul_one] at answer
      dsimp only
      rw [← nearest]
      exact reported_of_answers answer near (value_ofInt _).symm

/-! ## The other integers -/

variable {m n : ℤ}

/-- Steps between integers that are working values are exact. -/
theorem sub_one_ofInt (hm : (ofInt m).IsWorking) (hn : (ofInt (m - 1)).IsWorking) :
    (ofInt m).sub 1 = .ok (ofInt (m - 1)) :=
  reported_of_answers (sub_answers hm isWorking_one) hn (by
    rw [value_ofInt, value_ofInt, Int.cast_sub, Int.cast_one]
    exact congrArg _ value_one)

theorem add_one_ofInt (hm : (ofInt m).IsWorking) (hn : (ofInt (m + 1)).IsWorking) :
    (ofInt m).add 1 = .ok (ofInt (m + 1)) :=
  reported_of_answers (add_answers hm isWorking_one) hn (by
    rw [value_ofInt, value_ofInt, Int.cast_add, Int.cast_one]
    exact congrArg _ value_one)

/-- The integer part has no more digits than the number. -/
theorem IsWorking.ofInt_integerPart (hx : x.IsWorking) : (ofInt (integerPart x.value)).IsWorking :=
  hx.ofInt_near (abs_sub_integerPart_lt_one _)

/-- The integer part is exact. -/
theorem IsWorking.integer_eq (hx : x.IsWorking) :
    x.integer = .ok (ofInt (integerPart x.value)) := by
  have near : (ofInt (nearestInteger x.value)).IsWorking :=
    hx.ofInt_near ((abs_sub_nearestInteger_le _).trans_lt (by norm_num))
  have part := hx.ofInt_integerPart
  unfold integer
  refine bind_eq_ok.2 ⟨_, hx.round_eq, ?_⟩
  simp only [Bool.and_eq_true, decide_eq_true_eq, isPositive_iff_value, isNegative_iff_value,
    lt_iff_value, value_ofInt]
  split
  · rename_i up
    rw [integerPart_of_nearestInteger up.1.le, if_pos up.2] at part ⊢
    exact sub_one_ofInt near part
  · rename_i notUp
    split
    · rename_i down
      rw [integerPart_of_nearestInteger_of_nonpos down.1.le, if_pos down.2] at part ⊢
      exact add_one_ofInt near part
    · rename_i notDown
      rcases lt_trichotomy x.value 0 with negative | vanishes | positive
      · rw [integerPart_of_nearestInteger_of_nonpos negative.le,
          if_neg fun less => notDown ⟨negative, less⟩]
        rfl
      · rw [vanishes, ← Int.cast_zero, integerPart_intCast, nearestInteger_intCast]
        rfl
      · rw [integerPart_of_nearestInteger positive.le, if_neg fun less => notUp ⟨positive, less⟩]
        rfl

/-- The rest beyond the integer part is formed as it is. -/
theorem IsWorking.sub_integerPart (hx : x.IsWorking) :
    ∃ f, x.sub (ofInt (integerPart x.value)) = .ok f ∧
      f.value = x.value - integerPart x.value := by
  obtain ⟨f, hf, rest⟩ := hx.exists_rest
  refine ⟨f, reported_of_answers (sub_answers hx hx.ofInt_integerPart) hf ?_, rest⟩
  rw [value_ofInt, rest]

/-- So is what it leaves. -/
theorem IsWorking.fractional_eq (hx : x.IsWorking) :
    ∃ f, x.fractional = .ok f ∧ f.value = |x.value - integerPart x.value| := by
  obtain ⟨f, rest, value⟩ := hx.sub_integerPart
  refine ⟨f.abs, ?_, by rw [value_abs, value]⟩
  unfold fractional
  exact bind_eq_ok.2 ⟨_, hx.integer_eq, bind_eq_ok.2 ⟨f, rest, rfl⟩⟩

/-- The fractional part tells the integers. -/
theorem IsWorking.exists_fractional (hx : x.IsWorking) :
    ∃ f, x.fractional = .ok f ∧ (f.isZero = true ↔ ∃ n : ℤ, x.value = n) := by
  obtain ⟨f, fraction, value⟩ := hx.fractional_eq
  refine ⟨f, fraction, ?_⟩
  rw [isZero_iff_value, value, abs_eq_zero, sub_eq_zero]
  constructor
  · exact fun integral => ⟨_, integral⟩
  · rintro ⟨n, integral⟩
    rw [integral, integerPart_intCast]

/-- An integer meets the requirement. -/
theorem IsWorking.requireIntegral_eq (hx : x.IsWorking) {n : ℤ} (whole : x.value = n) :
    x.requireIntegral = .ok () := by
  obtain ⟨f, fraction, none⟩ := hx.exists_fractional
  unfold requireIntegral
  rw [fraction]
  exact if_neg (by simp [none.2 ⟨n, whole⟩])

/-- The floor is exact. -/
theorem IsWorking.floor_eq (hx : x.IsWorking) : x.floor = .ok (ofInt ⌊x.value⌋) := by
  obtain ⟨f, rest, value⟩ := hx.sub_integerPart
  have cut := abs_lt.1 (abs_sub_integerPart_lt_one x.value)
  have part := hx.ofInt_integerPart
  unfold floor
  refine bind_eq_ok.2 ⟨_, hx.integer_eq, bind_eq_ok.2 ⟨f, rest, ?_⟩⟩
  split
  · rename_i negative
    rw [isNegative_iff_value, value] at negative
    have floor : ⌊x.value⌋ = integerPart x.value - 1 := by
      rw [Int.floor_eq_iff]
      push_cast
      exact ⟨by linarith, by linarith⟩
    have below : (ofInt ⌊x.value⌋).IsWorking :=
      hx.ofInt_near ((abs_of_nonneg (Int.fract_nonneg x.value)).trans_lt (Int.fract_lt_one x.value))
    rw [floor] at below ⊢
    exact sub_one_ofInt part below
  · rename_i nonnegative
    rw [isNegative_iff_value, value, not_lt] at nonnegative
    have floor : ⌊x.value⌋ = integerPart x.value := by
      rw [Int.floor_eq_iff]
      exact ⟨by linarith, by linarith⟩
    rw [floor]
    rfl

/-- The ceiling is exact. -/
theorem IsWorking.ceil_eq (hx : x.IsWorking) : x.ceil = .ok (ofInt ⌈x.value⌉) := by
  obtain ⟨f, rest, value⟩ := hx.sub_integerPart
  have cut := abs_lt.1 (abs_sub_integerPart_lt_one x.value)
  have part := hx.ofInt_integerPart
  unfold ceil
  refine bind_eq_ok.2 ⟨_, hx.integer_eq, bind_eq_ok.2 ⟨f, rest, ?_⟩⟩
  split
  · rename_i positive
    rw [isPositive_iff_value, value] at positive
    have ceil : ⌈x.value⌉ = integerPart x.value + 1 := by
      rw [Int.ceil_eq_iff]
      push_cast
      exact ⟨by linarith, by linarith⟩
    have above : (ofInt (integerPart x.value + 1)).IsWorking := hx.ofInt_near (by
      rw [abs_lt]
      push_cast
      exact ⟨by linarith, by linarith⟩)
    rw [ceil]
    exact add_one_ofInt part above
  · rename_i nonpositive
    rw [isPositive_iff_value, value, not_lt] at nonpositive
    have ceil : ⌈x.value⌉ = integerPart x.value := by
      rw [Int.ceil_eq_iff]
      exact ⟨by linarith, by linarith⟩
    rw [ceil]
    rfl

/-- The test for a fraction finds the integers. -/
theorem IsWorking.hasNoFraction_iff (hx : x.IsWorking) :
    x.hasNoFraction = true ↔ ∃ n : ℤ, x.value = n := by
  obtain ⟨f, fraction, value⟩ := hx.fractional_eq
  unfold hasNoFraction
  rw [fraction]
  dsimp only
  rw [isZero_iff_value, value, abs_eq_zero, sub_eq_zero]
  constructor
  · exact fun whole => ⟨_, whole⟩
  · rintro ⟨n, integral⟩
    rw [integral, integerPart_intCast]

/-- Rounding to integers is exact and never fails on working values, and what has no fraction is
recognised. -/
theorem integral_parts_exact (hx : x.IsWorking) :
    x.round = .ok (ofInt (nearestInteger x.value)) ∧
      x.integer = .ok (ofInt (integerPart x.value)) ∧
      (∃ f, x.fractional = .ok f ∧ f.value = |x.value - integerPart x.value|) ∧
      x.floor = .ok (ofInt ⌊x.value⌋) ∧ x.ceil = .ok (ofInt ⌈x.value⌉) ∧
      (x.hasNoFraction = true ↔ ∃ n : ℤ, x.value = n) :=
  ⟨hx.round_eq, hx.integer_eq, hx.fractional_eq, hx.floor_eq, hx.ceil_eq, hx.hasNoFraction_iff⟩

/-- A half above -10 ^ 135 fills all the digits, and every correction carries. -/
theorem integral_parts_of_long_half :
    let x : Decimal := ⟨5 - 10 ^ 136, -1, .inl (by decide)⟩
    x.IsWorking ∧ x.round = .ok (ofInt (-10 ^ 135)) ∧ x.integer = .ok (ofInt (1 - 10 ^ 135)) ∧
      (∃ f, x.fractional = .ok f ∧ f.value = 1 / 2) ∧ x.floor = .ok (ofInt (-10 ^ 135)) ∧
      x.ceil = .ok (ofInt (1 - 10 ^ 135)) ∧ x.hasNoFraction = false := by
  intro x
  have hx : x.IsWorking := by decide
  have half : x.value = -(10 ^ 135 - 1 / 2) := by simp [x, value]; norm_num
  have near : nearestInteger x.value = -10 ^ 135 := by
    rw [half, nearestInteger_neg, nearestInteger_of_nonneg (by norm_num), round_eq]
    norm_num
  have part : integerPart x.value = 1 - 10 ^ 135 := by
    rw [half, integerPart_neg, integerPart_of_nonneg (by norm_num)]
    norm_num
  have floor : ⌊x.value⌋ = -10 ^ 135 := by rw [half]; norm_num
  have ceil : ⌈x.value⌉ = 1 - 10 ^ 135 := by rw [half]; norm_num
  obtain ⟨round, integer, ⟨f, fractional, rest⟩, below, above, whole⟩ := integral_parts_exact hx
  rw [near] at round
  rw [part] at integer rest
  rw [floor] at below
  rw [ceil] at above
  refine ⟨hx, round, integer, ⟨f, fractional, ?_⟩, below, above, ?_⟩
  · rw [rest, half]
    norm_num
  · rw [Bool.eq_false_iff, ne_eq, whole, ← exponent_nonneg_iff]
    decide

end Decimal

end Calculator
