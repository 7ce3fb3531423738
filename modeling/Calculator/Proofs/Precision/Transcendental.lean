import Calculator.Precision.Transcendental
import Calculator.Proofs.Decimal.Series
import Calculator.Proofs.Precision.Side

/-!
# The sign of a logarithm and the side of an exponential

However the series are cut off, the unrounded logarithm has the sign that the side of its argument
tells, and the unrounded exponential is on the side that the sign of its argument tells.
-/

namespace Calculator.Precision

open Series

variable {p : Precision} {x y : Decimal} {s : Side} {scale : ℕ} {n m k : ℤ}

/-! ## Logarithms of ratios -/

/-- The logarithm of the inverse ratio is the opposite one. -/
theorem lnRatio_swap (scale : ℕ) (n m : ℤ) : lnRatio scale n m = -lnRatio scale m n := by
  have difference : (n - m) * tenPow scale = -((m - n) * tenPow scale) := by ring
  rw [lnRatio, lnRatio, difference, Int.neg_tdiv, artanh_neg, add_comm n]
  ring

/-- The fraction of a ratio above one is not negative. -/
theorem fraction_nonneg (scale : ℕ) (hm : 0 ≤ m) (le : m ≤ n) :
    0 ≤ ((n - m) * tenPow scale).tdiv (n + m) :=
  Int.tdiv_nonneg (mul_nonneg (by omega) (tenPow_pos scale).le) (by omega)

/-- A ratio from one on has a logarithm that is not negative. -/
theorem lnRatio_nonneg (scale : ℕ) (hm : 0 ≤ m) (le : m ≤ n) : 0 ≤ lnRatio scale n m :=
  mul_nonneg (by decide) (artanh_nonneg scale (fraction_nonneg scale hm le))

theorem lnRatio_nonpos (scale : ℕ) (hn : 0 ≤ n) (le : n ≤ m) : lnRatio scale n m ≤ 0 := by
  rw [lnRatio_swap]
  exact neg_nonpos.2 (lnRatio_nonneg scale hn le)

/-- A ratio near one has a small fraction. -/
theorem fraction_le (scale : ℕ) (hm : 0 < m) (le : m ≤ n) (hk : 0 ≤ k)
    (small : k * (n - m) ≤ n + m) : k * ((n - m) * tenPow scale).tdiv (n + m) ≤ tenPow scale := by
  rw [mul_comm (n - m)]
  have bound := mul_tdiv_le (m := 1) (tenPow_pos scale).le (sub_nonneg.2 le)
    (by omega : 0 < n + m) hk (by omega)
  omega

/-- A ratio close to one has a small logarithm. -/
theorem lnRatio_le (scale : ℕ) (hn : 0 < n) (hm : 0 < m) (hk : 3 ≤ k) (small : k * (n - m) ≤ n + m) :
    4 * k * lnRatio scale n m ≤ 9 * tenPow scale := by
  have unit := tenPow_pos scale
  rcases le_total n m with le | le
  · have sign := lnRatio_nonpos scale hn.le le
    exact (mul_nonpos_of_nonneg_of_nonpos (by omega) sign).trans (by omega)
  · have nonneg := fraction_nonneg scale hm.le le
    have bound := fraction_le scale hm le (by omega) small
    have third := mul_le_mul_of_nonneg_right hk nonneg
    have series := artanh_le scale nonneg (third.trans bound)
    rw [lnRatio]
    calc 4 * k * (2 * artanh scale (((n - m) * tenPow scale).tdiv (n + m)))
        = k * (8 * artanh scale (((n - m) * tenPow scale).tdiv (n + m))) := by ring
      _ ≤ k * (9 * ((n - m) * tenPow scale).tdiv (n + m)) :=
          mul_le_mul_of_nonneg_left series (by omega)
      _ = 9 * (k * ((n - m) * tenPow scale).tdiv (n + m)) := by ring
      _ ≤ 9 * tenPow scale := by omega

/-- Up to five quarters, the logarithm is at most the one that belongs to ten. -/
theorem lnRatio_le_artanh (scale : ℕ) (hn : 0 < n) (hm : 0 < m) (small : 9 * (n - m) ≤ n + m) :
    lnRatio scale n m ≤ 2 * artanh scale (tenPow scale / 9) := by
  have unit := tenPow_pos scale
  rcases le_total n m with le | le
  · have sign := lnRatio_nonpos scale hn.le le
    have ninth := artanh_nonneg scale (z := tenPow scale / 9) (by omega)
    omega
  · have bound := fraction_le scale hm le (by decide) small
    exact mul_le_mul_of_nonneg_left
      (artanh_mono scale (fraction_nonneg scale hm.le le) (by omega)) (by decide)

/-! ## The halvings -/

/-- The power of two that a number of `[1, 10)` is divided by. -/
def octave (scale : ℕ) (n : ℤ) : ℤ := Nat.pow 2 (halvings (tenPow scale) n) * tenPow scale

/-- A number that is halved was more than two thirds of the power it is divided by; it is halved
three times at most, and otherwise down to four thirds. -/
theorem halvings_spec (scale : ℕ) (n : ℤ) :
    (halvings (tenPow scale) n = 0 ∧ octave scale n = tenPow scale ∨
      1 ≤ halvings (tenPow scale) n ∧ 2 * octave scale n < 3 * n) ∧
    (halvings (tenPow scale) n ≤ 2 ∧ 3 * n ≤ 4 * octave scale n ∨
      halvings (tenPow scale) n = 3 ∧ octave scale n = 8 * tenPow scale) := by
  unfold octave halvings
  simp only [Nat.pow_eq]
  split
  · norm_num
    omega
  · split
    · norm_num
      omega
    · split
      · norm_num
        omega
      · norm_num
        omega

theorem octave_pos (scale : ℕ) (n : ℤ) : 0 < octave scale n :=
  mul_pos (by exact_mod_cast Nat.pow_pos (by decide)) (tenPow_pos scale)

/-- The logarithm of a number of `[1, 10)`, in units of `10 ^ scale`. -/
def lnDecade (scale : ℕ) (n : ℤ) : ℤ :=
  halvings (tenPow scale) n * lnTwo scale + lnRatio scale n (octave scale n)

/-- From one on, the logarithm of a number of a decade is not negative. -/
theorem lnDecade_nonneg (fine : (10 : ℤ) ≤ tenPow scale) (low : tenPow scale ≤ n) :
    0 ≤ lnDecade scale n := by
  have two := le_lnTwo scale
  have pos := octave_pos scale n
  unfold lnDecade
  rcases (halvings_spec scale n).1 with ⟨none, one⟩ | ⟨some, above⟩
  · have rest := lnRatio_nonneg scale pos.le (one.trans_le low)
    rw [none, Int.natCast_zero, zero_mul, zero_add]
    exact rest
  · have rest := lnRatio_le scale pos (by omega : 0 < n) (by decide : (3 : ℤ) ≤ 5)
      (by omega)
    have halved : lnTwo scale ≤ halvings (tenPow scale) n * lnTwo scale :=
      le_mul_of_one_le_left (by omega) (by exact_mod_cast some)
    rw [lnRatio_swap]
    omega

/-- And it is at most that of ten. -/
theorem lnDecade_le (low : 0 < n) (high : n ≤ 10 * tenPow scale) :
    lnDecade scale n ≤ lnTen scale := by
  have two := le_lnTwo scale
  have ninth := artanh_nonneg scale (z := tenPow scale / 9) (by omega)
  have pos := octave_pos scale n
  unfold lnDecade
  rw [lnTen_eq]
  rcases (halvings_spec scale n).2 with ⟨few, below⟩ | ⟨three, eight⟩
  · have rest := lnRatio_le scale low pos (by decide : (3 : ℤ) ≤ 7) (by omega)
    have halved : halvings (tenPow scale) n * lnTwo scale ≤ 2 * lnTwo scale :=
      mul_le_mul_of_nonneg_right (by exact_mod_cast few) (by omega)
    omega
  · have rest := lnRatio_le_artanh scale low pos (by omega)
    rw [three]
    push_cast
    omega

/-! ## The logarithm -/

/-- A number that has no digits behind the scale is written with its exponent. -/
theorem coefficient_mul_tenPow (whole : 0 ≤ x.exponent + scale) :
    ((x.coefficient * tenPow (x.exponent + scale).toNat : ℤ) : ℚ) =
      x.value * (tenPow scale : ℤ) := by
  have power : (10 : ℚ) ^ x.exponent * 10 ^ scale = 10 ^ (x.exponent + scale).toNat := by
    rw [← zpow_natCast, ← zpow_natCast, ← Decimal.ten_zpow_add, Int.toNat_of_nonneg whole]
  rw [Decimal.value, tenPow_eq, tenPow_eq]
  push_cast
  rw [mul_assoc, power]

/-- Near one the number and one are written with one exponent. -/
theorem hasLog_lnRatio (whole : 0 ≤ x.exponent + scale) (pos : 0 < x.value) (h : s.Has x.value) :
    s.HasLog (lnRatio scale (x.coefficient * tenPow (x.exponent + scale).toNat) (tenPow scale)) := by
  have unit : (0 : ℚ) < (tenPow scale : ℤ) := by exact_mod_cast tenPow_pos scale
  have written := coefficient_mul_tenPow whole
  generalize x.coefficient * tenPow (x.exponent + scale).toNat = n at written
  cases s with
  | above =>
    rw [Side.Has, abs_of_pos pos] at h
    have le : ((tenPow scale : ℤ) : ℚ) ≤ n := written ▸ le_mul_of_one_le_left unit.le h
    have sign := lnRatio_nonneg scale (tenPow_pos scale).le (by exact_mod_cast le)
    exact Side.hasLog_intCast.2 sign
  | below =>
    have small := h.2
    rw [abs_of_pos pos] at small
    have le : (n : ℚ) ≤ (tenPow scale : ℤ) := written ▸ mul_le_of_le_one_left unit.le small
    have nonneg : (0 : ℚ) ≤ n := written ▸ (mul_pos pos unit).le
    have sign := lnRatio_nonpos scale (n := n) (m := tenPow scale)
      (by exact_mod_cast nonneg) (by exact_mod_cast le)
    exact Side.hasLog_intCast.2 sign

/-- The digits of a number with a point behind the first one. -/
theorem leading_bounds (scale : ℕ) (few : x.digits ≤ scale + 1) (pos : 0 < x.coefficient) :
    (tenPow scale : ℤ) ≤ x.coefficient * tenPow (scale + 1 - x.digits) ∧
      x.coefficient * tenPow (scale + 1 - x.digits) ≤ 10 * tenPow scale := by
  have some : 0 < x.digits := digitCount_pos _
  have front : 10 ^ (x.digits - 1) ≤ x.coefficient.natAbs := Decimal.pow_digits_le pos.ne'
  have back : x.coefficient.natAbs < 10 ^ x.digits := (Decimal.digits_le_iff some).1 le_rfl
  obtain ⟨c, same⟩ := Int.eq_ofNat_of_zero_le pos.le
  rw [same, Int.natAbs_natCast] at front back
  rw [same, tenPow_eq, tenPow_eq]
  have low : 10 ^ scale ≤ c * 10 ^ (scale + 1 - x.digits) := by
    calc 10 ^ scale = 10 ^ (x.digits - 1) * 10 ^ (scale + 1 - x.digits) := by
          rw [← pow_add]
          congr 1
          omega
      _ ≤ c * 10 ^ (scale + 1 - x.digits) := Nat.mul_le_mul_right _ front
  have high : c * 10 ^ (scale + 1 - x.digits) ≤ 10 * 10 ^ scale := by
    calc c * 10 ^ (scale + 1 - x.digits) ≤ 10 ^ x.digits * 10 ^ (scale + 1 - x.digits) :=
          Nat.mul_le_mul_right _ back.le
      _ = 10 * 10 ^ scale := by
          rw [← pow_add, ← pow_succ']
          congr 1
          omega
  exact ⟨by exact_mod_cast low, by exact_mod_cast high⟩

/-- Away from one, the logarithm counts the tens and takes the rest from a decade. -/
theorem lnParts_far (p : Precision) (x : Decimal) (far : ¬(2 ≤ 3 * x ∧ 3 * x ≤ 4)) :
    (p.lnParts x).1 = x.adjusted * lnTen (p.digits + guardPlaces) +
      lnDecade (p.digits + guardPlaces)
        (x.coefficient * tenPow (p.digits + guardPlaces + 1 - x.digits)) := by
  unfold lnParts
  dsimp only
  rw [if_neg far, add_assoc]
  rfl

/-- A number of few digits near one has no digits behind the scale. -/
theorem neg_digits_le_exponent_of_near (few : x.digits ≤ p.digits) (near : 2 ≤ 3 * x) :
    -(p.digits : ℤ) ≤ x.exponent := by
  have low : (2 : ℚ) ≤ 3 * x.value := by simpa using Decimal.le_iff_value.1 near
  have pos : 0 < x.value := by linarith
  have front : -1 ≤ x.adjusted := by
    by_contra small
    have less : x.value < 10 ^ (-1 : ℤ) :=
      calc x.value ≤ |x.value| := le_abs_self _
        _ < 10 ^ (x.adjusted + 1) := Decimal.abs_value_lt pos.ne'
        _ ≤ 10 ^ (-1 : ℤ) := zpow_le_zpow_right₀ (by norm_num) (by omega)
    norm_num at less
    linarith
  rw [Decimal.adjusted] at front
  omega

/-- The unrounded logarithm has the sign that the side of its argument tells. -/
theorem lnParts_hasLog (few : x.digits ≤ p.digits) (pos : 0 < x.value) (h : s.Has x.value) :
    s.HasLog (p.lnParts x).1 := by
  by_cases near : 2 ≤ 3 * x ∧ 3 * x ≤ 4
  · have whole := neg_digits_le_exponent_of_near few near.1
    unfold lnParts
    dsimp only
    rw [if_pos near]
    exact hasLog_lnRatio (by omega) pos h
  · have places : 0 < p.digits + guardPlaces := Nat.add_pos_right _ (by decide)
    have coefficient : 0 < x.coefficient := decide_eq_true_iff.1 (Decimal.isPositive_iff_value.2 pos)
    have bounds := leading_bounds (p.digits + guardPlaces) (x := x) (by omega) coefficient
    have unit := tenPow_pos (p.digits + guardPlaces)
    have ten := lnTen_pos places
    rw [lnParts_far p x near]
    cases s with
    | above =>
      have front : 0 ≤ x.adjusted := by
        by_contra small
        refine absurd h (not_le.2 ((Decimal.abs_value_lt pos.ne').trans_le ?_))
        exact zpow_le_one_of_nonpos₀ (by norm_num) (by omega)
      have decade := lnDecade_nonneg (ten_le_tenPow places) bounds.1
      exact Side.hasLog_intCast.2 (add_nonneg (mul_nonneg front ten.le) decade)
    | below =>
      have front : x.adjusted ≤ -1 := by
        by_contra large
        have one : x.value = 1 := by
          have above := Decimal.zpow_adjusted_le pos.ne'
          have below := h.2
          rw [abs_of_pos pos] at above below
          exact le_antisymm below ((one_le_zpow₀ (by norm_num) (by omega)).trans above)
        exact near (by norm_num [Decimal.le_iff_value, one])
      have decade := lnDecade_le (by omega) bounds.2
      have tens := mul_le_mul_of_nonneg_right front ten.le
      exact Side.hasLog_intCast.2 (by dsimp only; omega)

/-! ## The exponential -/

/-- Scaling an argument does not change its sign. -/
theorem scaled_hasLog (scale : ℕ) (h : s.HasLog x.value) : s.HasLog (scaled scale x) := by
  have power (n : ℕ) := (tenPow_pos n).le
  cases s with
  | above =>
    have sign := Decimal.coefficient_nonneg h
    have whole : 0 ≤ scaled scale x := by
      unfold scaled
      split
      · exact mul_nonneg sign (power _)
      · split
        · exact le_rfl
        · exact Int.tdiv_nonneg sign (power _)
    exact Side.hasLog_intCast.2 whole
  | below =>
    have sign : x.coefficient ≤ 0 := by
      simpa [Decimal.isPositive] using mt Decimal.isPositive_iff_value.1 (not_lt.2 h)
    have whole : scaled scale x ≤ 0 := by
      unfold scaled
      split
      · exact mul_nonpos_of_nonpos_of_nonneg sign (power _)
      · split
        · exact le_rfl
        · rw [← Int.neg_nonneg, ← Int.neg_tdiv]
          exact Int.tdiv_nonneg (Int.neg_nonneg.2 sign) (power _)
    exact Side.hasLog_intCast.2 whole

/-- The nearest multiple leaves half of what it is a multiple of. -/
theorem reduction_bounds {ten : ℤ} (pos : 0 < ten) (n : ℤ) :
    -ten ≤ 2 * (n - (2 * n + ten).fdiv (2 * ten) * ten) ∧
      2 * (n - (2 * n + ten).fdiv (2 * ten) * ten) ≤ ten ∧
      (0 ≤ n → 0 ≤ (2 * n + ten).fdiv (2 * ten)) ∧ (n ≤ 0 → (2 * n + ten).fdiv (2 * ten) ≤ 0) := by
  rw [Int.fdiv_eq_ediv_of_nonneg _ (by omega)]
  have low := Int.mul_ediv_self_le (x := 2 * n + ten) (k := 2 * ten) (by omega)
  have high := Int.lt_mul_ediv_self_add (x := 2 * n + ten) (k := 2 * ten) (by omega)
  have sign : 0 ≤ n → 0 ≤ (2 * n + ten) / (2 * ten) := fun h => Int.ediv_nonneg (by omega) (by omega)
  generalize (2 * n + ten) / (2 * ten) = k at low high sign ⊢
  have product : 2 * ten * k = 2 * (k * ten) := by ring
  refine ⟨by omega, by omega, sign, fun h => ?_⟩
  by_contra positive
  have multiple := mul_le_mul_of_nonneg_right (by omega : 1 ≤ k) pos.le
  omega

/-- A scaled number within a factor of ten of one is brought to a side by the powers of ten of that
side. The power one leaves it where it is. -/
theorem has_scaled {c : ℤ} (tenth : tenPow scale ≤ 10 * c) (tenfold : c ≤ 10 * tenPow scale)
    (power : s.HasLog k) (one : k = 0 → match s with
      | .above => tenPow scale ≤ c
      | .below => c ≤ tenPow scale) : s.Has (c * 10 ^ (k - scale)) := by
  have unit : (0 : ℚ) < (tenPow scale : ℤ) := by exact_mod_cast tenPow_pos scale
  have low : ((tenPow scale : ℤ) : ℚ) ≤ 10 * c := by exact_mod_cast tenth
  have high : (c : ℚ) ≤ 10 * (tenPow scale : ℤ) := by exact_mod_cast tenfold
  have scaling := Decimal.ten_zpow_pos k
  have pos : (0 : ℚ) < c := by linarith
  have quotient : (c : ℚ) * 10 ^ (k - scale) = c * 10 ^ k / (tenPow scale : ℤ) := by
    rw [zpow_sub₀ (by norm_num), zpow_natCast, tenPow_eq]
    push_cast
    ring
  rw [quotient]
  cases s with
  | above =>
    have reach : ((tenPow scale : ℤ) : ℚ) ≤ c * 10 ^ k := by
      rcases (Side.hasLog_intCast.1 power).eq_or_lt with zero | positive
      · rw [← zero, zpow_zero, mul_one]
        exact_mod_cast one zero.symm
      · have ten : (10 : ℚ) ^ (1 : ℤ) ≤ 10 ^ k := zpow_le_zpow_right₀ (by norm_num) positive
        rw [zpow_one] at ten
        nlinarith
    rwa [Side.Has, abs_of_pos (by positivity), one_le_div unit]
  | below =>
    have reach : (c : ℚ) * 10 ^ k ≤ (tenPow scale : ℤ) := by
      rcases (Side.hasLog_intCast.1 power).eq_or_lt with zero | negative
      · rw [zero, zpow_zero, mul_one]
        exact_mod_cast one zero
      · have ten : (10 : ℚ) ^ k ≤ 10 ^ (-1 : ℤ) :=
          zpow_le_zpow_right₀ (by norm_num) (Int.le_sub_one_of_lt negative)
        rw [zpow_neg_one] at ten
        nlinarith
    refine ⟨by positivity, ?_⟩
    rwa [abs_of_pos (by positivity), div_le_one unit]

/-- The unrounded exponential is on the side that the sign of its argument tells. -/
theorem expParts_has (p : Precision) (h : s.HasLog x.value) :
    s.Has ((p.expParts x).1 * 10 ^ (p.expParts x).2) := by
  have places : 0 < p.digits + guardPlaces := Nat.add_pos_right _ (by decide)
  have argument := scaled_hasLog (p.digits + guardPlaces) h
  have ten := lnTen_le (p.digits + guardPlaces)
  have unit := tenPow_pos (p.digits + guardPlaces)
  unfold expParts
  dsimp only
  generalize scaled (p.digits + guardPlaces) x = n at argument
  obtain ⟨low, high, rises, falls⟩ := reduction_bounds (lnTen_pos places) n
  generalize (2 * n + lnTen (p.digits + guardPlaces)).fdiv _ = k at low high rises falls
  obtain ⟨tenth, tenfold, above, below⟩ := exp_bounds
    (x := n - k * lnTen (p.digits + guardPlaces)) (by omega) (by omega) (ten_le_tenPow places)
  cases s with
  | above =>
    have sign := Side.hasLog_intCast.1 argument
    refine has_scaled tenth tenfold (Side.hasLog_intCast.2 (rises sign)) fun zero => above ?_
    rwa [zero, zero_mul, sub_zero]
  | below =>
    have sign := Side.hasLog_intCast.1 argument
    refine has_scaled tenth tenfold (Side.hasLog_intCast.2 (falls sign)) fun zero => below ?_
    rwa [zero, zero_mul, sub_zero]

end Calculator.Precision
