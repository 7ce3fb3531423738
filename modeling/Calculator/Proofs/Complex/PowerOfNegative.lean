import Calculator.Format.Layout
import Calculator.Proofs.Complex.ModulusAccuracy
import Calculator.Proofs.Real.PowerAccuracy
import Calculator.Proofs.Real.SineCosineAccuracy

/-!
# Natural powers of negative numbers

A complex power is the exponential of the exponent times the logarithm. The logarithm of a negative
number has `π` as imaginary part, so the exponential has to undo whole numbers of half turns that
were rounded to the working digits; sine and cosine take the turns off with the same rounded `π`, and
all that is left of the angle is what the rounding of the product has moved it by.
-/

namespace Calculator

open Precision (working)
open Real (log)

/-- Numbers that are rounded alike are shown alike. -/
theorem Decimal.render_eq_of_nearest_eq {x y : Decimal} {f : NumberFormat}
    (same : nearest f.digits x.value = nearest f.digits y.value) : x.render f = y.render f := by
  have alike : x.roundTo f.digits = y.roundTo f.digits := value_injective (by
    rw [value_roundTo x f.one_le_digits, value_roundTo y f.one_le_digits, same])
  rw [render, render, alike]

namespace Complex

open Decimal

variable {b n L m r : Decimal} {z : Complex} {k : ℕ}

/-! ## The steps of a power -/

/-- The logarithm of a negative number has half a turn as its angle. -/
theorem ln_of_negative {l : Complex} (negative : b.value < 0) (h : (ofReal b).ln = .ok l) :
    ∃ m L, (ofReal b).abs = .ok m ∧ m.ln = .ok L ∧ l = ⟨L, pi⟩ := by
  have below : b.isNegative = true := isNegative_iff_value.2 negative
  have angle : (ofReal b).arg = .ok pi := by
    have real : (ofReal b).im.isZero = true := rfl
    unfold arg
    rw [if_pos real]
    exact congrArg Except.ok (if_pos below)
  have complex : ¬(ofReal b).isNonnegative = true := by
    unfold isNonnegative ofReal
    rw [below, Bool.not_true, Bool.and_false]
    exact nofun
  unfold ln at h
  rw [if_neg complex, angle] at h
  obtain ⟨m, modulus, rest⟩ := bind_eq_ok.1 h
  obtain ⟨L, logarithm, last⟩ := bind_eq_ok.1 rest
  exact ⟨m, L, modulus, logarithm, (Except.ok.inj last).symm⟩

/-- A real factor multiplies both parts. -/
theorem mul_ofReal_left (x re im : Decimal) :
    (ofReal x).mul ⟨re, im⟩ = (do return ⟨← x.mul re, ← x.mul im⟩ : Except _ Complex) := by
  simp only [mul, ofReal, zero_mul_eq]
  cases real : x.mul re with
  | error => simp only [bind, Except.bind]
  | ok p =>
    cases imaginary : x.mul im with
    | error => simp only [bind, Except.bind, sub_zero_eq (isWorking_of_mul real)]
    | ok q =>
      simp only [bind, Except.bind, sub_zero_eq (isWorking_of_mul real),
        add_zero_eq (isWorking_of_mul imaginary)]

theorem exp_eq_ok {w : Complex} (h : w.exp = .ok z) :
    ∃ M, w.re.exp = .ok M ∧ (w.im.isZero = true ∧ z = ofReal M ∨
      ∃ c s, w.im.cos = .ok c ∧ w.im.sin = .ok s ∧ c.mul M = .ok z.re ∧ s.mul M = .ok z.im) := by
  obtain ⟨M, magnitude, rest⟩ := bind_eq_ok.1 h
  refine ⟨M, magnitude, ?_⟩
  split at rest
  · rename_i real
    exact .inl ⟨real, (Except.ok.inj rest).symm⟩
  · right
    obtain ⟨c, cosine, rest⟩ := bind_eq_ok.1 rest
    obtain ⟨s, sine, rest⟩ := bind_eq_ok.1 rest
    obtain ⟨re, first, rest⟩ := bind_eq_ok.1 (liftM_eq_ok.1 rest)
    obtain ⟨im, second, last⟩ := bind_eq_ok.1 rest
    cases last
    exact ⟨c, s, cosine, sine, first, second⟩

/-- The magnitude of the power has the logarithm of the exact power. -/
theorem abs_log_magnitude_sub_le {P M : Decimal} (hb : b.IsWorking) (nonzero : b.value ≠ 0)
    (hn : n.IsWorking) (whole : n.value = k) (modulus : (ofReal b).abs = .ok m)
    (logarithm : m.ln = .ok L) (product : n.mul L = .ok P) (magnitude : P.exp = .ok M) :
    0 < M.value ∧ |log M.value - k * log b.value| ≤ 10 ^ (-126 : ℤ) := by
  obtain ⟨pos, size, exp_near⟩ := Decimal.abs_log_exp_sub_le (isWorking_of_mul product) magnitude
  have answer := mul_answers hn (Decimal.yields_ln m L logarithm)
  rw [reported_eq_ok.1 product] at answer
  have rounded := Rat.cast_le (K := ℝ).2
    (abs_nearest_sub_le (d := working.digits) (q := n.value * L.value))
  rw [← answer.value_eq, roundoff_working, whole] at rounded
  push_cast at rounded
  have near := abs_sub_mul_le rounded (abs_ln_abs_sub_le hb nonzero modulus logarithm)
    (by positivity)
  have exact_near := abs_sub_le_of_bounded near (by positivity) (by norm_num)
    (by exact_mod_cast size : |(P.value : ℝ)| ≤ 10 ^ 7)
  refine ⟨pos, ?_⟩
  have triangle := abs_sub_le (log M.value) (P.value : ℝ) (k * log b.value)
  norm_num at exp_near exact_near ⊢
  linarith only [exp_near, exact_near, triangle]

/-! ## Half turns -/

/-- What the rounding of an angle of `n` half turns to the working digits changes it by. -/
def turnError (n : Decimal) : ℚ :=
  nearest working.digits (n.value * pi.value) - n.value * pi.value

/-- The angle of fewer than `10 ^ 85` half turns has fifty places behind the point. -/
theorem abs_turnError_le (whole : n.value = k) (bounded : n.value < 10 ^ 85) :
    |turnError n| ≤ 10 ^ (-50 : ℤ) - 10 ^ (-100 : ℤ) := by
  have pi_pos : 0 < pi.value := lt_trans (by norm_num) lt_value_pi
  have pi_lt : pi.value < 10 := value_pi_lt.trans (by norm_num)
  by_cases none : k = 0
  · rw [turnError, whole, none, Nat.cast_zero, zero_mul, nearest_zero, sub_zero, abs_zero]
    norm_num
  · have some : 0 < n.value := by
      rw [whole]
      exact_mod_cast Nat.pos_of_ne_zero none
    have pos := mul_pos some pi_pos
    have size : n.value * pi.value < 10 ^ working.digits * 10 ^ (-50 : ℤ) := by
      have places : (10 : ℚ) ^ working.digits * 10 ^ (-50 : ℤ) = 10 ^ 85 * 10 := by
        have digits : working.digits = 136 := rfl
        rw [digits]
        norm_num
      rw [places]
      exact mul_lt_mul'' bounded pi_lt some.le pi_pos.le
    refine (abs_nearest_sub_le_half pos size).trans ?_
    norm_num

/-- The roundings of the cosine and of the product with it. -/
theorem abs_turned_sub_le {a c s t y : ℝ} (flip : |s| = 1)
    (rounded : |y - c * a| ≤ 5 * 10 ^ (-136 : ℤ) * |c * a|)
    (near : |s * c - 1| ≤ t / 2 + 2 * 10 ^ (-128 : ℤ)) (small : t ≤ 1) (pos : 0 < a) :
    |s * y - a| ≤ (t / 2 + 3 * 10 ^ (-128 : ℤ)) * a := by
  have cos_le : |c| ≤ 2 := by
    have triangle := abs_add_le (s * c - 1) 1
    rw [sub_add_cancel, abs_mul, flip, one_mul, abs_one] at triangle
    have tiny : 2 * (10 : ℝ) ^ (-128 : ℤ) ≤ 1 / 2 := by norm_num
    linarith only [triangle, near, small, tiny]
  have product : |c * a| ≤ 2 * a := by
    rw [abs_mul, abs_of_pos pos]
    exact mul_le_mul_of_nonneg_right cos_le pos.le
  have kept : |y - c * a| ≤ 10 ^ (-128 : ℤ) * a :=
    calc |y - c * a| ≤ 5 * 10 ^ (-136 : ℤ) * (2 * a) :=
          rounded.trans (mul_le_mul_of_nonneg_left product (by positivity))
      _ = 10 * 10 ^ (-136 : ℤ) * a := by ring
      _ ≤ 10 ^ (-128 : ℤ) * a := mul_le_mul_of_nonneg_right (by norm_num) pos.le
  have split : s * y - a = s * (y - c * a) + (s * c - 1) * a := by ring
  calc |s * y - a| ≤ |y - c * a| + |s * c - 1| * a := by
        rw [split]
        refine (abs_add_le _ _).trans_eq ?_
        rw [abs_mul, abs_mul, flip, one_mul, abs_of_pos pos]
    _ ≤ 10 ^ (-128 : ℤ) * a + (t / 2 + 2 * 10 ^ (-128 : ℤ)) * a :=
        add_le_add kept (mul_le_mul_of_nonneg_right near pos.le)
    _ = (t / 2 + 3 * 10 ^ (-128 : ℤ)) * a := by ring

/-- An angle of zero is close to no half turn but the first one. -/
theorem eq_zero_of_near (near : |0 - k * pi.value| ≤ 10 ^ (-50 : ℤ) - 10 ^ (-100 : ℤ)) : k = 0 := by
  by_contra some
  have one : (1 : ℚ) ≤ k := by exact_mod_cast Nat.one_le_iff_ne_zero.2 some
  have turns := mul_le_mul_of_nonneg_right one (lt_trans (by norm_num) lt_value_pi).le
  rw [zero_sub, abs_neg] at near
  have far := (le_abs_self _).trans near
  norm_num at far
  linarith [lt_value_pi]

/-- The exponential of a number whose angle is close to half turns is real, and loses little of its
magnitude. -/
theorem exp_of_near_turns {w : Complex} {M : Decimal} (hw : w.IsWorking)
    (near : |w.im.value - k * pi.value| ≤ 10 ^ (-50 : ℤ) - 10 ^ (-100 : ℤ))
    (magnitude : w.re.exp = .ok M) (pos : 0 < M.value) (h : w.exp = .ok z) :
    z.im = .zero ∧ |(-1) ^ k * (z.re.value : ℝ) - M.value| ≤
      (((w.im.value - k * pi.value : ℚ) : ℝ) ^ 2 / 2 + 3 * 10 ^ (-128 : ℤ)) * M.value := by
  have posReal : (0 : ℝ) < M.value := by exact_mod_cast pos
  obtain ⟨_, known, parts⟩ := exp_eq_ok h
  rw [magnitude] at known
  cases known
  rcases parts with ⟨real, rfl⟩ | ⟨c, s, cosine, sine, first, second⟩
  · have none : k = 0 := eq_zero_of_near (by rwa [isZero_iff_value.1 real] at near)
    refine ⟨rfl, ?_⟩
    rw [none, pow_zero, one_mul, ofReal, sub_self, abs_zero]
    positivity
  · rw [sin_eq_zero_of_near hw.2 near sine, zero_mul_eq] at second
    refine ⟨(Except.ok.inj second).symm, ?_⟩
    have answer := mul_answers (Decimal.yields_cos _ c cosine) (Decimal.yields_exp _ M magnitude)
    rw [reported_eq_ok.1 first] at answer
    have rounded := Rat.cast_le (K := ℝ).2
      (abs_nearest_sub_le (d := working.digits) (q := c.value * M.value))
    rw [← answer.value_eq, roundoff_working] at rounded
    push_cast at rounded
    have small : ((w.im.value - k * pi.value : ℚ) : ℝ) ^ 2 ≤ 1 := by
      have unit : |((w.im.value - k * pi.value : ℚ) : ℝ)| ≤ 1 := by
        exact_mod_cast near.trans (by norm_num)
      exact (sq_le_one_iff_abs_le_one _).2 unit
    exact abs_turned_sub_le (abs_neg_one_pow k) rounded (abs_cos_sub_le_of_near hw.2 near cosine)
      small posReal

/-! ## Natural powers -/

/-- The power is the exponential of the exponent times the logarithm. -/
theorem pow_ofReal_eq_ok (negative : b.value < 0) (h : (ofReal b).pow (ofReal n) = .ok z) :
    ∃ m L P A, (ofReal b).abs = .ok m ∧ m.ln = .ok L ∧ n.mul L = .ok P ∧ n.mul pi = .ok A ∧
      (⟨P, A⟩ : Complex).exp = .ok z := by
  have below : b.isNegative = true := isNegative_iff_value.2 negative
  have complex : ¬((ofReal b).isNonnegative && (ofReal n).isNonnegative) = true := by
    unfold isNonnegative ofReal
    rw [below, Bool.not_true, Bool.and_false, Bool.false_and]
    exact nofun
  have some : ¬(ofReal b).isZero = true := by
    unfold isZero ofReal
    rw [Bool.and_eq_true]
    exact fun zero => negative.ne (isZero_iff_value.1 zero.1)
  unfold pow at h
  rw [if_neg complex, if_neg some] at h
  obtain ⟨l, logarithm, rest⟩ := bind_eq_ok.1 h
  obtain ⟨m, L, modulus, real, rfl⟩ := ln_of_negative negative logarithm
  obtain ⟨w, product, exponential⟩ := bind_eq_ok.1 rest
  have parts := liftM_eq_ok.1 product
  rw [mul_ofReal_left] at parts
  obtain ⟨P, first, rest⟩ := bind_eq_ok.1 parts
  obtain ⟨A, second, last⟩ := bind_eq_ok.1 rest
  cases last
  exact ⟨m, L, P, A, modulus, real, first, second, exponential⟩

/-- A power of a negative number changes sign with the exponent. -/
theorem neg_one_pow_mul_eq_abs (negative : b.value < 0)
    (sign : SignType.sign r.value = SignType.sign (b.value ^ k)) :
    (-1) ^ k * r.value = |r.value| ∧ r.value ≠ 0 := by
  rw [sign_pow, sign_neg negative] at sign
  rcases Nat.even_or_odd k with even | odd
  · rw [even.neg_one_pow, sign_eq_one_iff] at sign
    rw [even.neg_one_pow, one_mul, abs_of_pos sign]
    exact ⟨rfl, sign.ne'⟩
  · rw [odd.neg_one_pow, sign_eq_neg_one_iff] at sign
    rw [odd.neg_one_pow, neg_one_mul, abs_of_neg sign]
    exact ⟨rfl, sign.ne⟩

/-- The real power has the magnitude of the complex one. -/
theorem abs_magnitude_sub_le {P M : Decimal} (hb : b.IsWorking) (negative : b.value < 0)
    (hn : n.IsWorking) (whole : n.value = k) (modulus : (ofReal b).abs = .ok m)
    (logarithm : m.ln = .ok L) (product : n.mul L = .ok P) (magnitude : P.exp = .ok M)
    (real : b.pow n = .ok r) : 0 < M.value ∧ r.value ≠ 0 ∧ (-1) ^ k * r.value = |r.value| ∧
      |(M.value : ℝ) - (|r.value| : ℚ)| ≤ 4 * 10 ^ (-126 : ℤ) * ((|r.value| : ℚ) : ℝ) := by
  obtain ⟨pos, near⟩ :=
    abs_log_magnitude_sub_le hb negative.ne hn whole modulus logarithm product magnitude
  obtain ⟨near_power, sign⟩ := abs_log_pow_sub_le hb negative.ne whole real
  obtain ⟨flipped, some⟩ := neg_one_pow_mul_eq_abs negative sign
  have posReal : (0 : ℝ) < M.value := by exact_mod_cast pos
  have size : (0 : ℝ) < (|r.value| : ℚ) := by exact_mod_cast abs_pos.2 some
  have close : |log M.value - log (|r.value| : ℚ)| ≤ 3 * 10 ^ (-126 : ℤ) := by
    have triangle := abs_sub_le (log M.value) (k * log b.value) (log r.value)
    rw [abs_sub_comm (k * log b.value)] at triangle
    rw [Rat.cast_abs, Real.log_abs]
    linarith only [near, near_power, triangle]
  refine ⟨pos, some, flipped, ?_⟩
  refine (abs_sub_le_of_abs_log_sub_le posReal size (by norm_num) close).trans ?_
  exact mul_le_mul_of_nonneg_right (by norm_num) size.le

/-- The turn that is left, the roundings of the cosine and those of the magnitude together. -/
theorem abs_sub_le_of_turned {a c s t : ℝ}
    (turned : |a - c| ≤ (t / 2 + 3 * 10 ^ (-128 : ℤ)) * c) (nonneg : 0 ≤ t) (pos : 0 < s)
    (magnitudes : |c - s| ≤ 4 * 10 ^ (-126 : ℤ) * s) : |a - s| ≤ (10 ^ (-125 : ℤ) + t) * s := by
  have size : c ≤ 2 * s := by
    have most := (le_abs_self _).trans magnitudes
    have small : 4 * (10 : ℝ) ^ (-126 : ℤ) * s ≤ 1 * s :=
      mul_le_mul_of_nonneg_right (by norm_num) pos.le
    linarith only [most, small]
  calc |a - s| ≤ |a - c| + |c - s| := abs_sub_le a c s
    _ ≤ (t / 2 + 3 * 10 ^ (-128 : ℤ)) * (2 * s) + 4 * 10 ^ (-126 : ℤ) * s :=
        add_le_add (turned.trans (mul_le_mul_of_nonneg_left size (by positivity))) magnitudes
    _ = (6 * 10 ^ (-128 : ℤ) + 4 * 10 ^ (-126 : ℤ) + t) * s := by ring
    _ ≤ (10 ^ (-125 : ℤ) + t) * s :=
        mul_le_mul_of_nonneg_right (add_le_add_left (by norm_num) t) pos.le

/-- What rounding the angle leaves of the half turns is squared in the cosine. -/
theorem pow_of_near_turns (hb : b.IsWorking) (negative : b.value < 0) (hn : n.IsWorking)
    (whole : n.value = k) (near : |turnError n| ≤ 10 ^ (-50 : ℤ) - 10 ^ (-100 : ℤ))
    (real : b.pow n = .ok r) (complex : (ofReal b).pow (ofReal n) = .ok z) :
    z.im = .zero ∧
      |z.re.value - r.value| ≤ (10 ^ (-125 : ℤ) + turnError n ^ 2) * |r.value| := by
  obtain ⟨m, L, P, A, modulus, logarithm, product, turns, exponential⟩ :=
    pow_ofReal_eq_ok negative complex
  obtain ⟨M, magnitude, -⟩ := exp_eq_ok exponential
  obtain ⟨pos, some, flipped, magnitudes⟩ :=
    abs_magnitude_sub_le hb negative hn whole modulus logarithm product magnitude real
  have answer := mul_answers hn isWorking_pi
  rw [reported_eq_ok.1 turns] at answer
  have error : A.value - k * pi.value = turnError n := by
    rw [turnError, answer.value_eq, whole]
  have hw : IsWorking ⟨P, A⟩ := ⟨isWorking_of_mul product, Decimal.yields_mul n pi A turns⟩
  rw [← error] at near ⊢
  obtain ⟨im, re⟩ := exp_of_near_turns hw near magnitude pos exponential
  refine ⟨im, ?_⟩
  have size : (0 : ℝ) < (|r.value| : ℚ) := by exact_mod_cast abs_pos.2 some
  have together := abs_sub_le_of_turned re (sq_nonneg _) size magnitudes
  have flip : |z.re.value - r.value| = |(-1) ^ k * z.re.value - (|r.value|)| := by
    rw [← flipped, ← mul_sub, abs_mul, abs_neg_one_pow, one_mul]
  rw [flip]
  refine Rat.cast_le (K := ℝ).1 ?_
  push_cast at together ⊢
  exact together

/-- What the real part of a power with exponent `n` can be off by, as a part of the power. -/
def powerError (n : Decimal) : ℚ := 10 ^ (-125 : ℤ) + turnError n ^ 2

theorem powerError_le (near : |turnError n| ≤ 10 ^ (-50 : ℤ) - 10 ^ (-100 : ℤ)) :
    powerError n ≤ 2 * 10 ^ (-100 : ℤ) := by
  have square := pow_le_pow_left₀ (abs_nonneg _) near 2
  rw [sq_abs] at square
  rw [powerError]
  norm_num at square ⊢
  linarith

/-- The complex power of a negative number with a natural exponent is real, and shown like the real
power, unless the turns are too many to be told to fifty places or the power is close to where its
rounding changes. -/
theorem pow_ofReal_of_negative (hb : b.IsWorking) (negative : b.value < 0) (hn : n.IsWorking)
    (whole : n.value = k) (real : b.pow n = .ok r)
    (complex : (ofReal b).pow (ofReal n) = .ok z) :
    (n.value < 10 ^ 85 → |turnError n| ≤ 10 ^ (-50 : ℤ) - 10 ^ (-100 : ℤ)) ∧
    (|turnError n| ≤ 10 ^ (-50 : ℤ) - 10 ^ (-100 : ℤ) →
      z.im = .zero ∧ |z.re.value - r.value| ≤ powerError n * |r.value| ∧
      (r.digits ≤ 50 ∨
        nearest 50 (r.value * (1 - powerError n)) = nearest 50 (r.value * (1 + powerError n)) →
          z.re.render .full = r.render .full)) := by
  refine ⟨abs_turnError_le whole, fun near => ?_⟩
  obtain ⟨im, re⟩ := pow_of_near_turns hb negative hn whole near real complex
  have small := powerError_le near
  refine ⟨im, re, fun clear => render_eq_of_nearest_eq ?_⟩
  have places : NumberFormat.full.digits = 50 := rfl
  rw [places]
  rcases clear with few | same
  · have part : 40 * powerError n * 10 ^ 50 ≤ 1 :=
      calc 40 * powerError n * 10 ^ 50 ≤ 40 * (2 * 10 ^ (-100 : ℤ)) * 10 ^ 50 := by gcongr
        _ ≤ 1 := by norm_num
    rw [nearest_eq_value few (by decide) part re, nearest_value few (by decide)]
  · exact nearest_eq_of_abs_sub_le (by decide) (small.trans_lt (by norm_num)) re same

theorem exists_ok_of_any {ε α : Type} {x : Except ε α} {p : α → Bool}
    (h : x.toOption.any p = true) : ∃ a, x = .ok a ∧ p a = true := by
  cases x with
  | ok a => exact ⟨a, rfl, h⟩
  | error => cases h

/-- The fourth power of minus three: the angle of four half turns is rounded up. -/
theorem pow_minus_three : (-3 : Decimal).pow 4 = .ok 81 ∧
    ∃ z, (ofReal (-3)).pow (ofReal 4) = .ok z ∧ z.im = .zero ∧
      z.re.render .full = (81 : Decimal).render .full := by
  have real : (-3 : Decimal).pow 4 = .ok 81 := by decide +kernel
  have complex : ((ofReal (-3)).pow (ofReal 4)).toOption.any (fun _ => true) = true := by
    decide +kernel
  obtain ⟨z, complex, -⟩ := exists_ok_of_any complex
  have whole : (4 : Decimal).value = (4 : ℕ) := value_ofNat 4
  obtain ⟨few, shown⟩ := @pow_ofReal_of_negative (-3) 4 81 z 4 (by decide)
    (isNegative_iff_value.1 (by decide)) (by decide) whole real complex
  obtain ⟨im, -, alike⟩ := shown (few (by rw [whole]; norm_num))
  exact ⟨real, z, complex, im, alike (.inl (by decide))⟩

/-- Minus one to the power 4E+85 is one, and the calculator leaves an imaginary part of 2E-50. The
square of 30…05 has a fifty-first digit that is rounded up; its logarithm and exponential are lower
by less than any digit shown, and round down. -/
theorem pow_ofReal_of_negative_ne :
    let turns : Decimal := ⟨4, 85, .inl (by decide)⟩
    let b : Decimal := ofInt (-30000000000000000000000005)
    let square : Decimal := ofInt (30000000000000000000000005 ^ 2)
    turns.IsWorking ∧ (-1 : Decimal).pow turns = .ok 1 ∧
      (∃ z, (ofReal (-1)).pow (ofReal turns) = .ok z ∧ z.im.render .full = "2E-50") ∧
      b.IsWorking ∧ b.pow 2 = .ok square ∧
      ∃ z, (ofReal b).pow (ofReal 2) = .ok z ∧ z.im = .zero ∧
        z.re.render .full ≠ square.render .full := by
  intro turns b square
  have off : ((ofReal (-1)).pow (ofReal turns)).toOption.any
      (fun z => decide (z.im.render .full = "2E-50")) = true := by decide +kernel
  have below : ((ofReal b).pow (ofReal 2)).toOption.any
      (fun z => decide (z.im = .zero ∧ z.re.render .full ≠ square.render .full)) = true := by
    decide +kernel
  obtain ⟨z, complex, part⟩ := exists_ok_of_any off
  obtain ⟨w, squared, shown⟩ := exists_ok_of_any below
  refine ⟨by decide +kernel, by decide +kernel, ⟨z, complex, of_decide_eq_true part⟩,
    by decide +kernel, by decide +kernel, w, squared, of_decide_eq_true shown⟩

end Complex

end Calculator
