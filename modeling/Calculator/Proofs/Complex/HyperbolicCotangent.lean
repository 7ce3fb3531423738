import Calculator.Proofs.Complex.Parity
import Calculator.Proofs.Complex.RealOperands
import Calculator.Proofs.Real.ExponentialAccuracy
import Calculator.Proofs.Real.SineCosine

/-!
# Where the hyperbolic cotangent is refused

The hyperbolic sine is half of the difference of two rounded exponentials. The one that is below one
lacks less than half a unit of the last place to it when the number is below 5E-137; then both are
rounded to one, the sine vanishes and the cotangent is refused as at its pole. For all other numbers
up to a million the difference keeps the sign of the number, and both functions have an answer.
-/

namespace Calculator

open Precision (working exponentBound)
open Real (log)

/-! ## Rounding next to one -/

section

variable {q : ℚ}

/-- What is rounded to one or higher in two steps lacks half a unit of each of the two places. -/
theorem one_le_twice_rounded_iff (pos : 0 < q) :
    1 ≤ nearest working.digits (nearest working.widened.digits q) ↔
      1 - 50000000005 * 10 ^ (-147 : ℤ) ≤ q := by
  have wide := working.widened_pos
  have inner := le_nearest_iff (k := 10 ^ 146 - 5 * 10 ^ 9) (e := -146) wide (by decide) (by decide)
    pos
  have outer := le_nearest_iff (k := 10 ^ 136) (e := -136) Decimal.working_digits_pos (by decide)
    le_rfl (nearest_pos wide pos)
  norm_num at inner outer ⊢
  rw [outer, inner]

/-- What is rounded to one or lower exceeds it by half a unit less half a unit of the finer places. -/
theorem twice_rounded_le_one_iff (pos : 0 < q) :
    nearest working.digits (nearest working.widened.digits q) ≤ 1 ↔
      q < 1 + 49999999995 * 10 ^ (-146 : ℤ) := by
  have wide := working.widened_pos
  have inner := le_nearest_iff (k := 10 ^ 145 + 5 * 10 ^ 9) (e := -145) wide (by decide) (by decide)
    pos
  have outer := nearest_le_iff (k := 10 ^ 135) (e := -135) Decimal.working_digits_pos le_rfl
    (by decide) (nearest_pos wide pos)
  norm_num at inner outer ⊢
  rw [outer, ← not_le, inner, not_le]

end

namespace Decimal

variable {x p n : Decimal}

/-! ## Exponentials next to one -/

/-- The exponential of a number that is hardly below zero is rounded to one at least. -/
theorem one_le_value_exp (hx : x.IsWorking) (bounded : |x.value| ≤ 10 ^ 6)
    (low : -(50000000004 * 10 ^ (-147 : ℤ)) ≤ x.value) (h : x.exp = .ok p) : 1 ≤ p.value := by
  obtain ⟨y, q, answer, pos, near, value, -⟩ := exists_exp hx bounded
  cases answer.symm.trans h
  rw [value, one_le_twice_rounded_iff pos, ← Rat.cast_le (K := ℝ)]
  have argument := Rat.cast_le (K := ℝ).2 low
  have above := Real.log_le_sub_one_of_pos (x := q) (by exact_mod_cast pos)
  have below := (abs_le.1 near).1
  norm_num at argument below ⊢
  linarith

/-- The exponential of a number that is hardly above zero is rounded to one at most. -/
theorem value_exp_le_one (hx : x.IsWorking) (bounded : |x.value| ≤ 10 ^ 6)
    (high : x.value ≤ 4 * 10 ^ (-136 : ℤ)) (h : x.exp = .ok p) : p.value ≤ 1 := by
  obtain ⟨y, q, answer, pos, near, value, -⟩ := exists_exp hx bounded
  cases answer.symm.trans h
  rw [value, twice_rounded_le_one_iff pos, ← Rat.cast_lt (K := ℝ)]
  have real : (0 : ℝ) < q := by exact_mod_cast pos
  have argument := Rat.cast_le (K := ℝ).2 high
  have inverse := Real.one_sub_inv_le_log_of_pos real
  have above := (abs_le.1 near).2
  by_contra large
  have less : (q : ℝ)⁻¹ ≤ (1 + 49999999995 * 10 ^ (-146 : ℤ))⁻¹ := by
    refine inv_anti₀ (by positivity) ?_
    push_cast at large
    exact not_lt.1 large
  norm_num at argument above less
  linarith

/-- The exponential of a number that is clearly below zero stays below one. -/
theorem value_exp_lt_one (hx : x.IsWorking) (bounded : |x.value| ≤ 10 ^ 6)
    (high : x.value ≤ -(50000000006 * 10 ^ (-147 : ℤ))) (h : x.exp = .ok p) : p.value < 1 := by
  obtain ⟨y, q, answer, pos, near, value, -⟩ := exists_exp hx bounded
  cases answer.symm.trans h
  rw [value, ← not_le, one_le_twice_rounded_iff pos, ← Rat.cast_le (K := ℝ)]
  intro large
  have argument := Rat.cast_le (K := ℝ).2 high
  have inverse := Real.one_sub_inv_le_log_of_pos (x := q) (by exact_mod_cast pos)
  have above := (abs_le.1 near).2
  have less : (q : ℝ)⁻¹ ≤ (1 - 50000000005 * 10 ^ (-147 : ℤ))⁻¹ := by
    refine inv_anti₀ (by norm_num) ?_
    push_cast at large
    exact large
  norm_num at argument above less
  linarith

/-- The exponentials of a positive number and its opposite lie on both sides of one. Both are one when
the smaller one is. -/
theorem exists_exponentials (hx : x.IsWorking) (pos : 0 < x.value) (bounded : x.value ≤ 10 ^ 6) :
    ∃ p n, x.exp = .ok p ∧ (-x).exp = .ok n ∧ (p.IsWorking ∧ n.IsWorking) ∧
      (Within 450000 p.value ∧ Within 450000 n.value) ∧ 1 ≤ p.value ∧ n.value ≤ 1 ∧
      (n.value = 1 → p.value = 1) := by
  have size : |x.value| ≤ 10 ^ 6 := by rwa [abs_of_pos pos]
  have opposite : (-x).value = -x.value := value_neg x
  have size' : |(-x).value| ≤ 10 ^ 6 := by rwa [opposite, abs_neg]
  obtain ⟨p, -, larger, -, -, -, within⟩ := exists_exp hx size
  obtain ⟨n, -, smaller, -, -, -, within'⟩ := exists_exp hx.neg size'
  have above := one_le_value_exp hx size (by norm_num; linarith) larger
  have below := value_exp_le_one hx.neg size' (by rw [opposite]; norm_num; linarith) smaller
  refine ⟨p, n, larger, smaller, ⟨yields_exp _ _ larger, yields_exp _ _ smaller⟩,
    ⟨within, within'⟩, above, below, fun one => le_antisymm ?_ above⟩
  -- otherwise the smaller one is below one
  refine value_exp_le_one hx size (le_of_not_gt fun large => ?_) larger
  refine (value_exp_lt_one hx.neg size' ?_ smaller).ne one
  rw [opposite]
  norm_num at large ⊢
  linarith

end Decimal

namespace Complex

open Decimal

variable {x a b p n s : Decimal} {z : Complex} {e f : ℕ}

/-! ## Quotients of real numbers -/

/-- The quotient of real numbers is formed when their products with the divisor are within the
bounds. -/
theorem exists_div_ofReal (ha : a.IsWorking) (hb : b.IsWorking) (nonzero : b.value ≠ 0)
    (size : Within e a.value) (size' : Within f b.value) (sum : e + f < 999999)
    (twice : f + f ≤ 999999) :
    ∃ c, (ofReal a).div (ofReal b) = .ok (ofReal c) ∧ c.IsWorking ∧
      Drift working.digits 3 c.value (a.value / b.value) := by
  have digit := working_digits_pos
  have top : exponentBound.toNat = 999999 := rfl
  obtain ⟨d, square, -⟩ := exists_mul hb.digits_le hb.digits_le ((size'.mul size').mono (by omega))
  obtain ⟨m, product, -⟩ := exists_mul ha.digits_le hb.digits_le ((size.mul size').mono (by omega))
  have divisor := square_ne_zero hb nonzero square
  have hm := isWorking_of_mul product
  have hd := isWorking_of_mul square
  have ratio := (drift_of_mul ha hb product).div digit (drift_of_mul hb hb square)
  rw [mul_div_mul_right _ _ nonzero] at ratio
  have within : Within (e + f + 1) (m.value / d.value) :=
    (size.div size').of_drift digit (few_roundings (by omega : 1 + 1 ≤ 10 ^ 18)) ratio
  obtain ⟨c, quotient, -⟩ := exists_div hm.digits_le hd.digits_le divisor
    (within.mono (by omega))
  refine ⟨c, ?_, Decimal.yields_div _ _ _ quotient,
    (drift_of_div hm hd divisor quotient).trans digit ratio⟩
  simp only [div_ofReal hb nonzero, square, product, bind, Except.bind, quotient]
  rfl

/-- A number of moderate size is halved, with its sign. -/
theorem exists_halve_ofReal (ha : a.IsWorking) (size : Within e a.value) (moderate : e ≤ 900000) :
    ∃ c, (ofReal a).halve = .ok (ofReal c) ∧ c.IsWorking ∧ Within (e + 2) c.value ∧
      SignType.sign c.value = SignType.sign a.value := by
  have digit := working_digits_pos
  have two : (2 : Decimal).value = 2 := value_ofNat 2
  have small : Within 1 (2 : Decimal).value := by
    rw [two]
    exact .inr ⟨by norm_num, by norm_num⟩
  obtain ⟨c, quotient, hc, drift⟩ := exists_div_ofReal ha (by decide : (2 : Decimal).IsWorking)
    (by rw [two]; norm_num) size small (by omega) (by omega)
  refine ⟨c, quotient, hc, ?_, ?_⟩
  · exact (size.div small).of_drift digit (few_roundings (by omega : 3 ≤ 10 ^ 18)) drift
  · have positive : SignType.sign (2⁻¹ : ℚ) = 1 := sign_pos (by norm_num)
    rw [drift.sign_eq digit, two, div_eq_mul_inv, sign_mul, positive, mul_one]

/-! ## Hyperbolic functions of positive numbers -/

/-- A real exponential is that of the decimal. -/
theorem exp_ofReal (h : x.exp = .ok p) : (ofReal x).exp = .ok (ofReal p) := by
  have real : (ofReal x).isReal = true := rfl
  unfold exp
  refine bind_eq_ok.2 ⟨p, h, ?_⟩
  rw [if_pos real]
  rfl

/-- The pair of exponentials of a real number is that of the decimal. -/
theorem expPair_ofReal (hp : x.exp = .ok p) (hn : (-x).exp = .ok n) :
    (ofReal x).expPair = .ok (ofReal p, ofReal n) := by
  unfold expPair
  rw [exp_ofReal hp, ← neg_ofReal, exp_ofReal hn]
  rfl

/-- Half of the sum and half of the difference of the exponentials. The difference is zero when the
smaller one is one, and positive otherwise. -/
theorem exists_cosh_sinh_of_pos (hx : x.IsWorking) (pos : 0 < x.value) (bounded : x.value ≤ 10 ^ 6) :
    ∃ n c s, (-x).exp = .ok n ∧ n.value ≤ 1 ∧ (ofReal x).cosh = .ok (ofReal c) ∧
      (ofReal x).sinh = .ok (ofReal s) ∧ (c.IsWorking ∧ s.IsWorking) ∧
      (Within 450003 c.value ∧ Within 450003 s.value) ∧
      SignType.sign s.value = SignType.sign (1 - n.value) := by
  have digit := working_digits_pos
  have top : exponentBound.toNat = 999999 := rfl
  obtain ⟨p, n, larger, smaller, ⟨hp, hn⟩, ⟨high, low⟩, above, below, both⟩ :=
    exists_exponentials hx pos bounded
  have pair := expPair_ofReal larger smaller
  have rest := (abs_log_exp_sub_le hx.neg smaller).1
  have most := (le_abs_self _).trans (high.resolve_left (by linarith)).2
  -- the sum
  have sum : Within (450000 + 1) (p.value + n.value) := by
    rw [Within, abs_of_pos (by linarith), pow_succ]
    generalize (10 : ℚ) ^ 450000 = T at most
    refine .inr ⟨?_, by linarith⟩
    exact (zpow_le_one_of_nonpos₀ (by norm_num) (by norm_num)).trans (by linarith)
  obtain ⟨total, added, value⟩ := exists_add hp.digits_le hn.digits_le (sum.mono (by omega))
  obtain ⟨c, halved, hc, size, -⟩ := exists_halve_ofReal (Decimal.yields_add _ _ _ added)
    (value ▸ sum.rounded digit) (by norm_num)
  -- the difference
  have difference : Within 450000 (p.value - n.value) := by
    refine hp.within_sub hn above (by norm_num) ?_
    rw [abs_of_nonneg (by linarith)]
    exact (by linarith : p.value - n.value ≤ p.value).trans most
  obtain ⟨gap, subtracted, value'⟩ := exists_sub hp.digits_le hn.digits_le
    (difference.mono (by omega))
  obtain ⟨s, halved', hs, size', sign⟩ := exists_halve_ofReal (Decimal.yields_sub _ _ _ subtracted)
    (value' ▸ difference.rounded digit) (by norm_num)
  refine ⟨n, c, s, smaller, below,
    bind_eq_ok.2 ⟨_, pair, bind_eq_ok.2 ⟨ofReal total, ?_, liftM_eq_ok.2 halved⟩⟩,
    bind_eq_ok.2 ⟨_, pair, bind_eq_ok.2 ⟨ofReal gap, ?_, liftM_eq_ok.2 halved'⟩⟩, ⟨hc, hs⟩,
    ⟨size, size'.mono (by omega)⟩, ?_⟩
  · rw [liftM_eq_ok, add_ofReal, added]
    rfl
  · rw [liftM_eq_ok, sub_ofReal, subtracted]
    rfl
  · rw [sign, value', sign_nearest digit]
    rcases below.eq_or_lt with one | less
    · rw [both one, one]
    · rw [sign_pos (by linarith), sign_pos (by linarith)]

theorem eq_ok_of_toOption {r : Except MathError Complex} {w : Complex} (h : r.toOption = some w) :
    r = .ok w := by
  cases r with
  | ok v => exact congrArg Except.ok (Option.some.inj h)
  | error => cases h

/-- The same for negative numbers, with the sign of the number. -/
theorem exists_cosh_sinh (hx : x.IsWorking) (nonzero : x.value ≠ 0) (bounded : |x.value| ≤ 10 ^ 6) :
    ∃ n c s, (-x.abs).exp = .ok n ∧ n.value ≤ 1 ∧ (ofReal x).cosh = .ok (ofReal c) ∧
      (ofReal x).sinh = .ok (ofReal s) ∧ (c.IsWorking ∧ s.IsWorking) ∧
      (Within 450003 c.value ∧ Within 450003 s.value) ∧
      SignType.sign s.value = SignType.sign x.value * SignType.sign (1 - n.value) := by
  rcases nonzero.lt_or_gt with negative | positive
  · have magnitude : x.abs = -x := by
      apply value_injective
      rw [value_abs, value_neg, abs_of_neg negative]
    rw [abs_of_neg negative, ← value_neg] at bounded
    obtain ⟨n, c, s, smaller, below, cosine, sine, ⟨hc, hs⟩, ⟨size, size'⟩, sign⟩ :=
      exists_cosh_sinh_of_pos hx.neg (by rw [value_neg]; linarith) bounded
    have even := cosh_neg (ofReal (-x))
    have odd := sinh_neg (ofReal (-x))
    rw [← neg_ofReal, Decimal.neg_neg] at even odd
    rw [cosine] at even
    rw [sine] at odd
    refine ⟨n, c, -s, magnitude ▸ smaller, below, eq_ok_of_toOption even, ?_, ⟨hc, hs.neg⟩,
      ⟨size, (value_neg s).symm ▸ size'.neg⟩, ?_⟩
    · rw [neg_ofReal]
      exact eq_ok_of_toOption odd
    · rw [value_neg, Left.sign_neg, sign, sign_neg negative, neg_one_mul]
  · have magnitude : x.abs = x := by
      apply value_injective
      rw [value_abs, abs_of_pos positive]
    rw [abs_of_pos positive] at bounded
    simp only [magnitude, sign_pos positive, one_mul]
    exact exists_cosh_sinh_of_pos hx positive bounded

/-! ## Refusal -/

/-- The cotangent is refused where the sine is zero. -/
theorem coth_of_sinh (h : z.sinh = .ok (ofReal s)) (vanishes : s.value = 0) :
    z.coth = .error (.invalidArgument "coth" .hyperbolicCotangent) := by
  have guard : (ofReal s).isZero = true := by
    rw [isZero, Bool.and_eq_true]
    exact ⟨isZero_iff_value.2 vanishes, rfl⟩
  unfold coth
  rw [h]
  simp only [bind, Except.bind, guard, if_true]
  rfl

/-- The cotangent is answered where the sine is not zero and both are of moderate size. -/
theorem exists_coth (hc : a.IsWorking) (hs : s.IsWorking) (nonzero : s.value ≠ 0)
    (size : Within 450003 a.value) (size' : Within 450003 s.value) (cosine : z.cosh = .ok (ofReal a))
    (sine : z.sinh = .ok (ofReal s)) : ∃ c, z.coth = .ok (ofReal c) := by
  obtain ⟨c, quotient, -, -⟩ := exists_div_ofReal hc hs nonzero size size' (by norm_num) (by norm_num)
  have guard : (ofReal s).isZero = false := by
    rw [isZero, Bool.and_eq_false_iff, ← Bool.not_eq_true, isZero_iff_value]
    exact .inl nonzero
  refine ⟨c, ?_⟩
  unfold coth
  rw [sine, cosine]
  simp only [bind, Except.bind, guard, quotient]
  rfl

/-- For a real number up to a million but zero the hyperbolic sine has the sign of the number, and the
hyperbolic cotangent is not refused, exactly when the exponential of the number with a minus sign is
not rounded to one; then the cotangent has an answer. It is so from 5.0000000006E-137 on; up to
5.0000000004E-137 the sine is zero, and the cotangent is refused as if the number were. -/
theorem sinh_coth_ofReal (hx : x.IsWorking) (nonzero : x.value ≠ 0) (bounded : |x.value| ≤ 10 ^ 6) :
    ((∃ s, (ofReal x).sinh = .ok (ofReal s) ∧ s.value ≠ 0 ∧
          SignType.sign s.value = SignType.sign x.value) ∧
        (ofReal x).coth ≠ .error (.invalidArgument "coth" .hyperbolicCotangent) ↔
      (-x.abs).exp ≠ .ok 1) ∧
    ((-x.abs).exp ≠ .ok 1 → ∃ c, (ofReal x).coth = .ok (ofReal c)) ∧
    (50000000006 * 10 ^ (-147 : ℤ) ≤ |x.value| → (-x.abs).exp ≠ .ok 1) ∧
    (|x.value| ≤ 50000000004 * 10 ^ (-147 : ℤ) → (ofReal x).sinh = .ok zero ∧
      (ofReal x).coth = .error (.invalidArgument "coth" .hyperbolicCotangent)) := by
  obtain ⟨n, c, s, smaller, below, cosine, sine, ⟨hc, hs⟩, ⟨size, size'⟩, sign⟩ :=
    exists_cosh_sinh hx nonzero bounded
  have opposite : (-x.abs).value = -|x.value| := by rw [value_neg, value_abs]
  have moderate : |(-x.abs).value| ≤ 10 ^ 6 := by rwa [opposite, abs_neg, abs_abs]
  have unit : (-x.abs).exp = .ok 1 ↔ n.value = 1 := by
    rw [smaller, Except.ok.injEq]
    exact ⟨fun one => one ▸ value_one, fun one => value_injective (one.trans value_one.symm)⟩
  have vanishing (one : n.value = 1) : s.value = 0 := by
    rw [one, sub_self, sign_zero, mul_zero] at sign
    exact sign_eq_zero_iff.1 sign
  have kept (other : n.value ≠ 1) : SignType.sign s.value = SignType.sign x.value := by
    rw [sign, sign_pos (sub_pos.2 (below.lt_of_ne other)), mul_one]
  have some (other : n.value ≠ 1) : s.value ≠ 0 := by
    rw [← sign_ne_zero, kept other, sign_ne_zero]
    exact nonzero
  have answers (other : n.value ≠ 1) : ∃ c, (ofReal x).coth = .ok (ofReal c) :=
    exists_coth hc hs (some other) size size' cosine sine
  simp only [ne_eq, unit]
  refine ⟨⟨?_, fun other => ⟨⟨s, sine, some other, kept other⟩, ?_⟩⟩, answers, fun large one => ?_,
    fun small => ?_⟩
  · rintro ⟨-, accepted⟩ one
    exact accepted (coth_of_sinh sine (vanishing one))
  · obtain ⟨c, answer⟩ := answers other
    rw [answer]
    exact nofun
  · refine (value_exp_lt_one hx.abs.neg moderate ?_ smaller).ne one
    rw [opposite]
    linarith
  · have above := one_le_value_exp hx.abs.neg moderate (by rw [opposite]; linarith) smaller
    have vanishes := vanishing (le_antisymm below above)
    obtain rfl : s = .zero := value_injective (vanishes.trans value_zero.symm)
    exact ⟨sine, coth_of_sinh sine vanishes⟩

/-- Minus a tenth has a hyperbolic sine below zero and a hyperbolic cotangent. -/
theorem sinh_coth_minus_tenth :
    let x : Decimal := -ofParts 1 (-1)
    x.IsWorking ∧ x.value ≠ 0 ∧ |x.value| ≤ 10 ^ 6 ∧
      (∃ s, (ofReal x).sinh = .ok (ofReal s) ∧ s.value < 0) ∧ ∃ c, (ofReal x).coth = .ok (ofReal c) := by
  intro x
  have working : x.IsWorking := by decide
  have value : x.value = -(1 / 10) := by
    rw [value_neg, value_ofParts]
    norm_num
  have nonzero : x.value ≠ 0 := by rw [value]; norm_num
  have bounded : |x.value| ≤ 10 ^ 6 := by rw [value, abs_neg]; norm_num
  obtain ⟨criterion, answers, large, -⟩ := sinh_coth_ofReal working nonzero bounded
  have apart := large (by rw [value, abs_neg]; norm_num)
  obtain ⟨⟨s, sine, -, sign⟩, -⟩ := criterion.2 apart
  refine ⟨working, nonzero, bounded, ⟨s, sine, ?_⟩, answers apart⟩
  have negative : x.value < 0 := by rw [value]; norm_num
  exact sign_eq_neg_one_iff.1 (sign.trans (sign_neg negative))

/-- The hyperbolic sine of 1E-200 is computed as zero, and its hyperbolic cotangent is refused. -/
theorem coth_of_tiny :
    let x : Decimal := ⟨1, -200, .inl (by decide)⟩
    x.IsWorking ∧ x.value ≠ 0 ∧ |x.value| ≤ 10 ^ 6 ∧ (ofReal x).sinh = .ok zero ∧
      (ofReal x).coth = .error (.invalidArgument "coth" .hyperbolicCotangent) := by
  intro x
  have nonzero : x.value ≠ 0 := mt value_eq_zero_iff.1 (by decide)
  have bounded : |x.value| ≤ 10 ^ 6 := by
    have below := abs_value_lt nonzero
    have tiny : (10 : ℚ) ^ (x.adjusted + 1) ≤ 10 ^ (6 : ℤ) :=
      zpow_le_zpow_right₀ (by norm_num) (by decide)
    exact_mod_cast below.le.trans tiny
  exact ⟨by decide, nonzero, bounded, by decide +kernel, by decide +kernel⟩

end Complex

end Calculator
