import Calculator.Proofs.Decimal.Rounding

/-!
# Integers among the decimal numbers

The integer part of a rational number is cut off toward zero, and the nearest integer has a half go
away from zero. A decimal is an integer when its exponent is not negative, and a fraction has both
from one division of its coefficient.
-/

namespace Calculator

/-- The integer part, cut off toward zero. -/
def integerPart (q : ℚ) : ℤ := SignType.sign q * ⌊|q|⌋

/-- The nearest integer, a half going away from zero. -/
def nearestInteger (q : ℚ) : ℤ := SignType.sign q * round |q|

variable {q : ℚ} {n : ℤ}

/-! ## Signs -/

/-- Cutting off toward zero is odd. -/
@[simp] theorem integerPart_neg (q : ℚ) : integerPart (-q) = -integerPart q := by
  simp [integerPart, Left.sign_neg]

/-- So is rounding with halves away from zero. -/
@[simp] theorem nearestInteger_neg (q : ℚ) : nearestInteger (-q) = -nearestInteger q := by
  simp [nearestInteger, Left.sign_neg]

/-- From zero on, the integer part is the floor. -/
theorem integerPart_of_nonneg (h : 0 ≤ q) : integerPart q = ⌊q⌋ := by
  rcases h.eq_or_lt with rfl | pos
  · simp [integerPart]
  · rw [integerPart, sign_pos pos, abs_of_pos pos, SignType.coe_one, one_mul]

/-- From zero on, rounding is that of Mathlib. -/
theorem nearestInteger_of_nonneg (h : 0 ≤ q) : nearestInteger q = round q := by
  rcases h.eq_or_lt with rfl | pos
  · simp [nearestInteger]
  · rw [nearestInteger, sign_pos pos, abs_of_pos pos, SignType.coe_one, one_mul]

@[simp] theorem integerPart_intCast (n : ℤ) : integerPart n = n := by
  rcases le_total 0 n with h | h
  · rw [integerPart_of_nonneg (by exact_mod_cast h), Int.floor_intCast]
  · have flipped : (0 : ℚ) ≤ ((-n : ℤ) : ℚ) := by exact_mod_cast neg_nonneg.2 h
    have part := integerPart_of_nonneg flipped
    rw [Int.floor_intCast, Int.cast_neg, integerPart_neg] at part
    exact neg_inj.1 part

@[simp] theorem nearestInteger_intCast (n : ℤ) : nearestInteger n = n := by
  rcases le_total 0 n with h | h
  · rw [nearestInteger_of_nonneg (by exact_mod_cast h), round_intCast]
  · have flipped : (0 : ℚ) ≤ ((-n : ℤ) : ℚ) := by exact_mod_cast neg_nonneg.2 h
    have near := nearestInteger_of_nonneg flipped
    rw [round_intCast, Int.cast_neg, nearestInteger_neg] at near
    exact neg_inj.1 near

/-! ## Distances -/

/-- The size is cut off. -/
theorem abs_integerPart (q : ℚ) : |integerPart q| = ⌊|q|⌋ := by
  wlog h : 0 ≤ q generalizing q
  · have flipped := this (-q) (by linarith)
    rwa [integerPart_neg, abs_neg, abs_neg] at flipped
  · rw [integerPart_of_nonneg h, abs_of_nonneg h, abs_of_nonneg (Int.floor_nonneg.2 h)]

/-- What is cut off is smaller than one and has the sign of the number. -/
theorem cut_of_nonneg (h : 0 ≤ q) : 0 ≤ q - integerPart q ∧ q - integerPart q < 1 := by
  rw [integerPart_of_nonneg h]
  exact ⟨Int.fract_nonneg q, Int.fract_lt_one q⟩

/-- Less than one is cut off. -/
theorem abs_sub_integerPart_lt_one (q : ℚ) : |q - integerPart q| < 1 := by
  wlog h : 0 ≤ q generalizing q
  · have flipped := this (-q) (by linarith)
    rwa [integerPart_neg, Int.cast_neg, neg_sub_neg, abs_sub_comm] at flipped
  · obtain ⟨low, high⟩ := cut_of_nonneg h
    rwa [abs_of_nonneg low]

/-- What is cut off has the sign of the number. -/
theorem sign_sub_integerPart (q : ℚ) :
    q - integerPart q = 0 ∨ SignType.sign (q - integerPart q) = SignType.sign q := by
  wlog h : 0 ≤ q generalizing q
  · have flipped := this (-q) (by linarith)
    rw [integerPart_neg, Int.cast_neg, ← neg_sub', neg_eq_zero, Left.sign_neg, Left.sign_neg,
      neg_inj] at flipped
    exact flipped
  · obtain ⟨low, -⟩ := cut_of_nonneg h
    rcases low.eq_or_lt with vanishes | cut
    · exact .inl vanishes.symm
    · have pos : 0 < q := by
        refine lt_of_le_of_ne h ?_
        rintro rfl
        simp [integerPart] at cut
      exact .inr (by rw [sign_pos cut, sign_pos pos])

/-- The nearest integer is at most a half away. -/
theorem abs_sub_nearestInteger_le (q : ℚ) : |q - nearestInteger q| ≤ 1 / 2 := by
  wlog h : 0 ≤ q generalizing q
  · have flipped := this (-q) (by linarith)
    rwa [nearestInteger_neg, Int.cast_neg, neg_sub_neg, abs_sub_comm] at flipped
  · rw [nearestInteger_of_nonneg h]
    exact abs_sub_round q

/-- The nearest integer is the integer part or the next one away from zero. -/
theorem integerPart_of_nearestInteger (h : 0 ≤ q) :
    integerPart q = if q < nearestInteger q then nearestInteger q - 1 else nearestInteger q := by
  have near := abs_le.1 (abs_sub_nearestInteger_le q)
  rw [integerPart_of_nonneg h, Int.floor_eq_iff]
  split
  · push_cast
    exact ⟨by linarith, by linarith⟩
  · exact ⟨by linarith, by linarith⟩

/-- Below zero the integer part is the nearest integer, or the next one up. -/
theorem integerPart_of_nearestInteger_of_nonpos (h : q ≤ 0) :
    integerPart q = if nearestInteger q < q then nearestInteger q + 1 else nearestInteger q := by
  have flipped := integerPart_of_nearestInteger (neg_nonneg.2 h)
  rw [integerPart_neg, nearestInteger_neg, Int.cast_neg] at flipped
  rw [← neg_neg (integerPart q), flipped]
  simp only [neg_lt_neg_iff]
  split
  · ring
  · exact neg_neg _

/-- An integer that is less than one away from an integer is that integer. -/
theorem eq_of_abs_sub_lt_one {m n : ℤ} (h : |(m : ℚ) - n| < 1) : m = n := by
  have whole : |m - n| < 1 := by exact_mod_cast h
  exact sub_eq_zero.1 (Int.abs_lt_one_iff.1 whole)

/-! ## Fractions -/

/-- The integer part of a fraction is the quotient of integers that is cut off. -/
theorem integerPart_div (a b : ℤ) : integerPart ((a : ℚ) / b) = a.tdiv b := by
  obtain ⟨n, rfl | rfl⟩ := a.eq_nat_or_neg <;> obtain ⟨m, rfl | rfl⟩ := b.eq_nat_or_neg
  all_goals
    have cut : integerPart ((n : ℚ) / m) = (n / m : ℕ) := by
      rw [integerPart_of_nonneg (by positivity), Rat.floor_natCast_div_natCast, Int.natCast_ediv]
    have quotient : (n : ℤ).tdiv m = (n / m : ℕ) := (Int.ofNat_tdiv n m).symm
    simp only [Int.neg_tdiv, Int.tdiv_neg, quotient, Int.cast_neg, Int.cast_natCast, neg_div,
      div_neg, integerPart_neg, neg_neg, cut]

/-- A quotient is rounded by its size and its sign. -/
theorem nearestInteger_div (c : ℤ) {m : ℕ} (pos : 0 < m) :
    nearestInteger ((c : ℚ) / m) = c.sign * roundDiv c.natAbs m := by
  have unit : (0 : ℚ) < m := by exact_mod_cast pos
  have magnitude : |(c : ℚ) / m| = (c.natAbs : ℚ) / m := by
    rw [abs_div, abs_of_pos unit, ← Int.cast_abs, Int.abs_eq_natAbs, Int.cast_natCast]
  have sign : SignType.sign ((c : ℚ) / m) = SignType.sign c := by
    rw [div_eq_mul_inv, sign_mul, sign_pos (inv_pos.2 unit), mul_one, sign_intCast]
  rw [nearestInteger, magnitude, round_div_natCast _ _ pos, sign, ← Int.sign_eq_sign]

namespace Decimal

variable {x : Decimal}

@[simp] theorem value_ofInt (n : ℤ) : (ofInt n).value = n := by
  rw [ofInt, value_ofParts, zpow_zero, mul_one]

@[simp] theorem value_ofNat (n : ℕ) :
    (no_index (OfNat.ofNat n) : Decimal).value = (OfNat.ofNat n : ℕ) := value_ofInt n

/-- In reduced form the integers are the numbers without a negative exponent. -/
theorem exponent_nonneg_iff : 0 ≤ x.exponent ↔ ∃ n : ℤ, x.value = n := by
  constructor
  · intro whole
    refine ⟨x.coefficient * 10 ^ x.exponent.toNat, ?_⟩
    rw [value, ten_zpow_eq_mul whole]
    push_cast
    simp
  · rintro ⟨n, integral⟩
    have same : x = ofInt n := value_injective (by rw [integral, value_ofInt])
    rw [same, ofInt, ofParts]
    split
    · exact le_rfl
    · dsimp only
      omega

/-- The first digit of an integer is in front of the point. -/
theorem adjusted_ofInt_nonneg (n : ℤ) : 0 ≤ (ofInt n).adjusted := by
  have whole := exponent_nonneg_iff.2 ⟨n, value_ofInt n⟩
  have some : 0 < (ofInt n).digits := digitCount_pos _
  rw [adjusted]
  omega

/-- An integer is its coefficient with zeros. -/
theorem coefficient_mul_pow (whole : x.value = n) :
    x.coefficient * 10 ^ x.exponent.toNat = n := by
  have power : ((x.coefficient * 10 ^ x.exponent.toNat : ℤ) : ℚ) = n := by
    rw [← whole, value, ten_zpow_eq_mul (exponent_nonneg_iff.2 ⟨n, whole⟩)]
    push_cast
    simp
  exact_mod_cast power

/-- An integer has as many digits as its leading digit tells. -/
theorem adjusted_lt_natCast_iff (whole : x.value = n) (nonzero : n ≠ 0) {d : ℕ} :
    x.adjusted < d ↔ |n| < 10 ^ d := by
  rw [adjusted_lt_iff (by rw [whole]; exact_mod_cast nonzero), whole, zpow_natCast]
  exact_mod_cast Iff.rfl

/-- A number with a fraction is an integer over a power of ten. -/
theorem zpow_exponent_of_fraction (fraction : x.exponent < 0) :
    (10 : ℚ) ^ x.exponent = ((10 ^ (-x.exponent).toNat : ℕ) : ℚ)⁻¹ := by
  rw [Nat.cast_pow, Nat.cast_ofNat, ← zpow_natCast, Int.toNat_of_nonneg (by omega), zpow_neg,
    inv_inv]

/-- A number with digits behind the point is a fraction. -/
theorem value_eq_div (fraction : x.exponent < 0) :
    x.value = (x.coefficient : ℚ) / (10 ^ (-x.exponent).toNat : ℕ) := by
  rw [value, zpow_exponent_of_fraction fraction, div_eq_mul_inv]

end Decimal

end Calculator
