import Calculator.Proofs.Precision.PowerCondition
import Calculator.Proofs.Real.Drift
import Calculator.Proofs.Real.Power

/-!
# How far repeated squaring drifts

A product of two rounded numbers has the roundings of both and one of its own. Repeated squaring
multiplies `result · square ^ n`, so each of the `n` squares in this power brings the roundings of
the square and one for the multiplication that takes it in; no step of the loop changes this count.
A power is then rounded once more to the digits that are kept.
-/

namespace Calculator.Precision

variable {p : Precision} {i j m n : ℕ} {q r u v : ℚ} {x y z b e : Decimal} {k : ℤ}

/-- A number of no more digits than the precision has, `n` roundings away from `q`. -/
structure Approximates (p : Precision) (n : ℕ) (x : Decimal) (q : ℚ) : Prop where
  few : x.digits ≤ p.digits
  drift : Drift p.digits n x.value q

namespace Approximates

theorem of_few (digit : 0 < p.digits) (few : x.digits ≤ p.digits) : p.Approximates n x x.value :=
  ⟨few, .refl digit x.value⟩

theorem value_lift (h : p.Approximates n x q) : (p.lift x).value = x.value := by
  rw [lift, Decimal.roundTo_eq_self h.few]

/-- The answer of an operation has one rounding more than its exact result. -/
theorem of_round (digit : 0 < p.digits) (exact : Drift p.digits n x.value q)
    (h : p.round x = .ok y) : p.Approximates (n + 1) y q := by
  have answer := round_answers (p := p) x digit
  rw [h] at answer
  refine ⟨digits_le_of_round digit h, ?_⟩
  rw [Nat.add_comm]
  exact (Drift.of_answers digit answer).trans digit exact

theorem multiply (digit : 0 < p.digits) (hx : p.Approximates m x q) (hy : p.Approximates n y r)
    (h : p.multiply x y = .ok z) : p.Approximates (m + n + 1) z (q * r) := by
  refine of_round digit ?_ h
  rw [Decimal.value_mul, hx.value_lift, hy.value_lift]
  exact hx.drift.mul digit hy.drift

theorem reciprocal (digit : 0 < p.digits) (hx : p.Approximates n x q) (nonzero : x.value ≠ 0)
    (h : p.divide 1 x = .ok z) : Drift p.digits (n + 1) z.value q⁻¹ := by
  have answer := divide_answers (p := p) (a := 1) digit nonzero
  have one : (p.lift 1).value = 1 := by
    rw [Precision.value_lift 1 digit, Decimal.value_one, nearest_one digit]
  rw [h, one, hx.value_lift] at answer
  have inverse := (Drift.refl (n := 0) digit (1 : ℚ)).div digit hx.drift
  rw [one_div, one_div] at inverse
  rw [one_div] at answer
  have both := (Drift.of_answers digit answer).trans digit inverse
  rwa [Nat.zero_add, Nat.add_comm] at both

end Approximates

/-! ## The loop -/

/-- Each square that is still to be taken in brings its own roundings and one more. -/
theorem multiplyPower_approximates (digit : 0 < p.digits) (limit : ℕ) (enough : n < 2 ^ limit)
    (hx : p.Approximates i x u) (hy : p.Approximates j y v)
    (h : p.multiplyPower limit n x y = .ok z) :
    p.Approximates (i + n * (j + 1)) z (u * v ^ n) := by
  induction limit generalizing n i j x y u v with
  | zero =>
    have none : n = 0 := by simpa using enough
    rw [multiplyPower] at h
    cases h
    rw [none, Nat.zero_mul, pow_zero, mul_one]
    exact hx
  | succ limit ih =>
    by_cases none : n = 0
    · rw [multiplyPower, if_pos none] at h
      cases h
      rw [none, Nat.zero_mul, pow_zero, mul_one]
      exact hx
    · rw [multiplyPower_succ limit none] at h
      obtain ⟨w, product, rest⟩ := bind_eq_ok.1 h
      have half : n = n % 2 + 2 * (n / 2) := (Nat.mod_add_div n 2).symm
      -- the binary digit decides whether the square is taken in
      have taken : p.Approximates (i + n % 2 * (j + 1)) w (u * v ^ (n % 2)) := by
        rcases Nat.mod_two_eq_zero_or_one n with even | odd
        · rw [if_neg (by omega)] at product
          cases product
          rw [even, Nat.zero_mul, pow_zero, mul_one]
          exact hx
        · rw [if_pos odd] at product
          rw [odd, Nat.one_mul, pow_one, ← Nat.add_assoc]
          exact hx.multiply digit hy product
      have count : i + n * (j + 1) = i + n % 2 * (j + 1) + n / 2 * (j + j + 1 + 1) := by
        nth_rewrite 1 [half]
        ring
      have power : u * v ^ n = u * v ^ (n % 2) * (v * v) ^ (n / 2) := by
        nth_rewrite 1 [half]
        rw [pow_add, pow_mul]
        ring
      split at rest
      · rename_i last
        cases rest
        rw [count, power, last, Nat.zero_mul, pow_zero, mul_one, Nat.add_zero]
        exact taken
      · obtain ⟨square, squared, further⟩ := bind_eq_ok.1 rest
        rw [count, power]
        exact ih (by omega) taken (hy.multiply digit hy squared) further

/-- The natural power of a number that the precision holds has a rounding for each factor. -/
theorem naturalPower_approximates (digit : 0 < p.digits) (held : p.Holds b)
    (h : p.naturalPower b n = .ok x) : p.Approximates n x (b.value ^ n) := by
  obtain ⟨square, rounded, run⟩ := bind_eq_ok.1 h
  rw [round_of_holds digit held] at rounded
  cases rounded
  have one : (1 : Decimal).digits = 1 := by decide
  have power := multiplyPower_approximates digit _ Nat.lt_log2_self
    (Approximates.of_few (n := 0) digit (one.trans_le digit))
    (Approximates.of_few (n := 0) digit held.few) run
  rwa [Nat.zero_add, Nat.zero_add, Nat.mul_one, Decimal.value_one, one_mul] at power

/-! ## The power -/

/-- The power before its last rounding: a negative exponent adds the rounding of the inverse. -/
theorem integerPower_drift (digit : 0 < p.digits) (held : p.Holds b) (nonzero : b.value ≠ 0)
    (h : p.integerPower b k = .ok z) :
    ∃ w, Drift p.widened.digits (k.natAbs + 1) w (b.value ^ k) ∧ z.value = nearest p.digits w := by
  have wide := p.widened_pos
  rw [integerPower_eq] at h
  obtain ⟨power, natural, last⟩ := bind_eq_ok.1 h
  have close := naturalPower_approximates wide held.widened natural
  have rounded (w : Decimal) (answer : p.round w = .ok z) : z.value = nearest p.digits w.value := by
    have spec := round_answers (p := p) w digit
    rw [answer] at spec
    exact spec.value_eq
  rcases lt_or_ge k 0 with negative | natural_exponent
  · rw [if_pos negative] at last
    obtain ⟨inverse, divided, answer⟩ := bind_eq_ok.1 last
    have some : power.value ≠ 0 :=
      mt (close.drift.eq_zero_iff wide).1 (pow_ne_zero _ nonzero)
    have exact_power : b.value ^ k = (b.value ^ k.natAbs)⁻¹ := by
      rw [← zpow_natCast, ← zpow_neg]
      congr 1
      omega
    refine ⟨inverse.value, ?_, rounded inverse answer⟩
    rw [exact_power]
    exact close.reciprocal wide some divided
  · rw [if_neg (not_lt.2 natural_exponent)] at last
    have exact_power : b.value ^ k = b.value ^ k.natAbs := by
      rw [← zpow_natCast]
      congr 1
      omega
    refine ⟨power.value, ?_, rounded power last⟩
    rw [exact_power]
    exact close.drift.trans wide (.refl (n := 1) wide _)

end Calculator.Precision

namespace Calculator

variable {d m n : ℕ} {q w : ℚ}

/-- Roundings keep the sign. -/
theorem Drift.sign_eq (digit : 0 < d) (h : Drift d n w q) : SignType.sign w = SignType.sign q := by
  obtain ⟨f, factor, rfl⟩ := h
  rw [sign_mul, sign_pos (factor.pos digit), one_mul]

theorem sign_nearest (digit : 0 < d) (q : ℚ) : SignType.sign (nearest d q) = SignType.sign q :=
  (Drift.nearest digit q).sign_eq digit

/-- Roundings to more digits and a last one to fewer: the errors add up, and what the last one makes
of the others is a small part of its own. -/
theorem abs_nearest_sub_le_of_drift (digit : 0 < d) (few : 2 * n * roundoff d ≤ 1)
    (h : Drift d n w q) :
    |nearest m w - q| ≤ (2 * n * roundoff d + 2 * roundoff m) * |q| := by
  have drifted := h.abs_sub_le digit few
  have size : |w| ≤ 2 * |q| := by
    have triangle := abs_add_le (w - q) q
    rw [sub_add_cancel] at triangle
    have part := mul_le_mul_of_nonneg_right few (abs_nonneg q)
    linarith
  have last := abs_nearest_sub_le (d := m) (q := w)
  have scaled := mul_le_mul_of_nonneg_left size (roundoff_pos m).le
  calc |nearest m w - q| ≤ |nearest m w - w| + |w - q| := abs_sub_le _ w q
    _ ≤ roundoff m * (2 * |q|) + 2 * n * roundoff d * |q| := by linarith
    _ = (2 * n * roundoff d + 2 * roundoff m) * |q| := by ring

namespace Decimal

open Precision (working)

variable {b e r : Decimal} {n : ℤ}

/-- A power of a working value with an exponent of up to eighteen digits has the sign of the exact
power and differs from it by little more than the roundings that repeated squaring goes through. -/
theorem power_error (hb : b.IsWorking) (nonzero : b.value ≠ 0) (whole : e.value = n) (some : n ≠ 0)
    (bounded : |n| < 10 ^ 18) (h : working.power b e = .ok r) :
    |r.value - b.value ^ n| ≤
        |b.value ^ n| * ((2 * |n| + 70) * 10 ^ (-145 : ℤ) + 10 ^ (-135 : ℤ)) ∧
      SignType.sign r.value = SignType.sign (b.value ^ n) := by
  have digit := working_digits_pos
  obtain ⟨low, high⟩ := abs_lt.1 bounded
  have short : Precision.IsShort n := ⟨by omega, by omega⟩
  have fits : e.adjusted < working.digits ∨ 18 < e.adjusted := by
    have places : working.digits = 136 := rfl
    have few := Precision.adjusted_le_of_isShort whole short
    omega
  rw [Precision.power_of_isShort nonzero whole some short fits] at h
  obtain ⟨w, drift, value⟩ := Precision.integerPower_drift digit hb.holds nonzero h
  have wide := Precision.widened_pos working
  have size : ((n.natAbs : ℕ) : ℚ) = |(n : ℚ)| := by
    rw [Nat.cast_natAbs, Int.cast_abs]
  have count : |(n : ℚ)| < 10 ^ 18 := by exact_mod_cast bounded
  have wide_error : roundoff working.widened.digits = 5 * 10 ^ (-146 : ℤ) := by
    have places : working.widened.digits = 146 := rfl
    rw [roundoff, places, Nat.cast_ofNat]
  have last_error : roundoff working.digits = 5 * 10 ^ (-136 : ℤ) := by
    have places : working.digits = 136 := rfl
    rw [roundoff, places, Nat.cast_ofNat]
  have roundings : ((n.natAbs + 1 : ℕ) : ℚ) = |(n : ℚ)| + 1 := by
    rw [Nat.cast_add, size, Nat.cast_one]
  have few : 2 * ((n.natAbs + 1 : ℕ) : ℚ) * roundoff working.widened.digits ≤ 1 := by
    rw [roundings, wide_error]
    norm_num at count ⊢
    linarith
  refine ⟨?_, ?_⟩
  · have error := abs_nearest_sub_le_of_drift (m := working.digits) wide few drift
    rw [← value, roundings, wide_error, last_error] at error
    refine error.trans ?_
    rw [mul_comm, Int.cast_abs]
    refine mul_le_mul_of_nonneg_left ?_ (abs_nonneg _)
    have positive := abs_nonneg (n : ℚ)
    norm_num
    linarith
  · rw [value, sign_nearest digit, drift.sign_eq wide]

/-- A negative exponent of a negative base: the ninth has a one at each of the 136 places. -/
theorem power_error_ninth :
    let ninth : Decimal := ⟨(10 ^ 136 - 1) / 9, -136, .inl (by decide)⟩
    working.power (-3) (-2) = .ok ninth ∧
      |ninth.value - (-3 : Decimal).value ^ (-2 : ℤ)| ≤ |(-3 : Decimal).value ^ (-2 : ℤ)| *
        ((2 * |(-2 : ℤ)| + 70) * 10 ^ (-145 : ℤ) + 10 ^ (-135 : ℤ)) ∧
      SignType.sign ninth.value = SignType.sign ((-3 : Decimal).value ^ (-2 : ℤ)) := by
  intro ninth
  have power : working.power (-3) (-2) = .ok ninth := by decide +kernel
  have whole : (-2 : Decimal).value = (-2 : ℤ) := by
    rw [value_neg, value_ofNat]
    norm_num
  exact ⟨power, power_error (by decide) (mt value_eq_zero_iff.1 (by decide)) whole (by decide)
    (by decide) power⟩

end Decimal

end Calculator
