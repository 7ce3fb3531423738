import Calculator.Proofs.Complex.Parity
import Calculator.Proofs.Complex.PowerOfNegative
import Calculator.Proofs.Complex.SquareRoot
import Calculator.Proofs.Real.RootAccuracy

/-!
# The inverse hyperbolic sine of opposite numbers

The inverse hyperbolic sine is the logarithm of the sum of a number and its hypotenuse. Of a negative
number this sum is the difference of two numbers that agree in more and more digits. It is positive as
long as the computed hypotenuse exceeds the number, which it does up to 10 ^ 67, and the exact product
of both sums is one; so the two logarithms are opposite but for what the square of the hypotenuse is
off by.
-/

namespace Calculator

open Precision (working)
open Real (log)

namespace Complex

open Decimal

variable {x y y' h w r : Decimal}

/-! ## The steps -/

theorem bind_of_ok {α β : Type} {r : Except MathError α} {a : α} (answer : r = .ok a)
    (f : α → Except MathError β) : (r >>= f) = f a := by
  rw [answer]
  rfl

theorem liftM_bind_of_ok {α β : Type} {r : Except ArithmeticError α} {a : α} (answer : r = .ok a)
    (f : α → Except MathError β) : ((liftM r : Except MathError α) >>= f) = f a :=
  bind_of_ok (liftM_eq_ok.2 answer) f

/-- On real numbers it is the logarithm of a real sum. -/
theorem arcsinh_ofReal (hx : x.IsWorking) (root : x.hypotenuse = .ok h) (sum : x.add h = .ok w) :
    (ofReal x).arcsinh = (ofReal w).ln := by
  obtain ⟨s, squared, r, added, rooted⟩ := hypotenuse_eq_ok.1 root
  have pos := (abs_log_radicand_sub_le hx squared added).1
  have square : (ofReal x).mul (ofReal x) = .ok (ofReal s) := by
    rw [mul_ofReal]
    exact congrArg (·.map ofReal) squared
  have radicand : (ofReal s).add one = .ok (ofReal r) := by
    change (ofReal s).add (ofReal 1) = _
    rw [add_ofReal, added]
    rfl
  have total : (ofReal x).add (ofReal h) = .ok (ofReal w) := by
    rw [add_ofReal, sum]
    rfl
  have hypotenuse : (ofReal r).sqrt = .ok (ofReal h) := by
    rw [sqrt_ofReal pos.le, rooted]
    rfl
  unfold arcsinh
  rw [liftM_bind_of_ok square, liftM_bind_of_ok radicand, bind_of_ok hypotenuse,
    liftM_bind_of_ok total]

/-- A logarithm is real when it is that of a positive number. -/
theorem ln_ofReal_eq_ok_iff : (ofReal w).ln = .ok (ofReal y) ↔ 0 < w.value ∧ w.ln = .ok y := by
  rcases lt_or_ge w.value 0 with negative | nonneg
  · refine iff_of_false (fun answer => ?_) fun real => lt_asymm real.1 negative
    obtain ⟨m, L, -, -, parts⟩ := ln_of_negative negative answer
    have angle : (ofReal y).im.value = 0 := value_zero
    rw [parts] at angle
    linarith [lt_value_pi]
  · have real : (ofReal w).isNonnegative = true := by
      rw [isNonnegative, ofReal, isNegative_eq_false nonneg]
      rfl
    unfold Complex.ln
    rw [if_pos real]
    constructor
    · intro answer
      obtain ⟨l, logarithm, same⟩ := bind_eq_ok.1 answer
      obtain rfl : l = y := congrArg Complex.re (Except.ok.inj same)
      refine ⟨lt_of_le_of_ne nonneg fun vanishes => ?_, logarithm⟩
      obtain rfl : w = .zero := value_injective (vanishes.symm.trans value_zero.symm)
      cases logarithm
    · rintro ⟨-, logarithm⟩
      exact bind_eq_ok.2 ⟨y, logarithm, rfl⟩

/-! ## Answers -/

/-- There is a real answer when the sum is positive. -/
theorem exists_arcsinh_iff (hx : x.IsWorking) (root : x.hypotenuse = .ok h)
    (bounded : |x.value| ≤ 10 ^ 400000) :
    (∃ y, (ofReal x).arcsinh = .ok (ofReal y)) ↔ 0 < x.value + h.value := by
  obtain ⟨w, sum, hw, value⟩ := exists_add_hypotenuse hx root bounded
  have positive : 0 < w.value ↔ 0 < x.value + h.value := by
    rw [value, ← sign_eq_one_iff, sign_nearest working_digits_pos, sign_eq_one_iff]
  simp only [arcsinh_ofReal hx root sum, ln_ofReal_eq_ok_iff, exists_and_left, positive]
  exact and_iff_left_of_imp fun pos => exists_ln hw (positive.2 pos)

/-- Both a number and its opposite have one when the hypotenuse exceeds the number. -/
theorem exists_arcsinh_neg_iff (hx : x.IsWorking) (bounded : |x.value| ≤ 10 ^ 400000)
    (root : x.hypotenuse = .ok h) :
    (∃ y y', (ofReal x).arcsinh = .ok (ofReal y) ∧ (ofReal (-x)).arcsinh = .ok (ofReal y')) ↔
      |x.value| < h.value := by
  have opposite : |(-x).value| = |x.value| := by rw [value_neg, abs_neg]
  have first := exists_arcsinh_iff hx root bounded
  have second := exists_arcsinh_iff hx.neg ((hypotenuse_neg x).trans root)
    (opposite.trans_le bounded)
  rw [value_neg, neg_add_eq_sub, sub_pos] at second
  rw [← neg_lt_iff_pos_add] at first
  rw [← exists_and_exists_comm, first, second, abs_lt]

/-- An answer is close to the exact logarithm of the sum. -/
theorem abs_arcsinh_sub_le (hx : x.IsWorking) (bounded : |x.value| ≤ 10 ^ 400000)
    (root : x.hypotenuse = .ok h) (answer : (ofReal x).arcsinh = .ok (ofReal y)) :
    |y.value - log (x.value + h.value)| ≤
        2 * 10 ^ (-135 : ℤ) * (1 + |log (x.value + h.value)|) ∧
      |log (x.value + h.value)| ≤ 10 ^ 8 := by
  have digit := working_digits_pos
  have places : working.digits = 136 := rfl
  obtain ⟨w, sum, hw, value⟩ := exists_add_hypotenuse hx root bounded
  have pos := (exists_arcsinh_iff hx root bounded).1 ⟨y, answer⟩
  rw [arcsinh_ofReal hx root sum, ln_ofReal_eq_ok_iff] at answer
  obtain ⟨positive, logarithm⟩ := answer
  have near := abs_ln_sub_le hw positive logarithm
  have rounded := abs_log_nearest_sub_le digit pos.ne'
  rw [← value, places] at rounded
  push_cast at rounded
  have size := hw.abs_log_le positive
  have moved := abs_abs_sub_abs_le (log w.value) (log (x.value + h.value))
  have triangle := abs_sub_le (y.value : ℝ) (log w.value) (log (x.value + h.value))
  obtain ⟨below, above⟩ := abs_le.1 (moved.trans rounded)
  norm_num at rounded near size below above ⊢
  constructor <;> linarith

/-! ## Opposite answers -/

section

variable {a k l l' m m' t κ : ℝ}

/-- The sums of a leg and of its opposite with the hypotenuse have a product close to one. -/
theorem abs_log_add_log_le (inside : |t| < k) (near : |k ^ 2 - (t ^ 2 + 1)| ≤ κ)
    (small : κ ≤ 1 / 2) : |log (t + k) + log (-t + k)| ≤ 2 * κ := by
  obtain ⟨low, high⟩ := abs_lt.1 inside
  rw [← Real.log_mul (by linarith) (by linarith)]
  refine abs_log_le_of_near_one ?_ small
  have product : (t + k) * (-t + k) - 1 = k ^ 2 - (t ^ 2 + 1) := by ring
  rwa [product]

/-- The larger sum is at least one and the leg. -/
theorem min_le_log_add (one : 1 ≤ k) (pos : 0 ≤ a) : min a 1 / 2 ≤ log (a + k) := by
  have inverse := Real.one_sub_inv_le_log_of_pos (by linarith : 0 < a + k)
  have less : (a + k)⁻¹ ≤ (a + 1)⁻¹ := inv_anti₀ (by linarith) (by linarith)
  have part : min a 1 / 2 ≤ 1 - (a + 1)⁻¹ := by
    have quotient : 1 - (a + 1)⁻¹ = a / (a + 1) := by field_simp; ring
    rw [quotient, div_le_div_iff₀ (by norm_num) (by linarith)]
    rcases le_total a 1 with small | large
    · rw [min_eq_left small]
      nlinarith
    · rw [min_eq_right large]
      linarith
  linarith

theorem min_sub_le_abs_log (one : 1 ≤ k) (near : |log (t + k) + log (-t + k)| ≤ κ) :
    min |t| 1 / 2 - κ ≤ |log (t + k)| := by
  have nonneg : 0 ≤ κ := (abs_nonneg _).trans near
  rcases le_total 0 t with positive | negative
  · have least := min_le_log_add one positive
    rw [abs_of_nonneg positive]
    linarith [le_abs_self (log (t + k))]
  · have least := min_le_log_add one (neg_nonneg.2 negative)
    rw [abs_of_nonpos negative]
    linarith [(abs_le.1 near).2, neg_le_abs (log (t + k))]

/-- What the square of the hypotenuse is off by, in the logarithm of a product, is at most half of the
smallest logarithm of a leg. -/
theorem error_le_min (low : 10 ^ (-40 : ℤ) ≤ a) (high : a ≤ 10 ^ 66) :
    2 * (43 / 10 * 10 ^ (-135 : ℤ) * (a ^ 2 + 1)) ≤ min a 1 / 4 := by
  have pos : 0 < a := lt_of_lt_of_le (by positivity) low
  rcases le_total a 1 with small | large
  · have square : a ^ 2 ≤ 1 := pow_le_one₀ pos.le small
    rw [min_eq_left small]
    norm_num at low ⊢
    linarith
  · have square := pow_le_pow_left₀ pos.le high 2
    rw [min_eq_right large]
    norm_num at square ⊢
    linarith

/-- So the logarithms of the two sums are opposite but for that error, and not small. -/
theorem log_add_of_near (low : 10 ^ (-40 : ℤ) ≤ |t|) (high : |t| ≤ 10 ^ 66) (inside : |t| < k)
    (one : 1 ≤ k) (near : |k ^ 2 - (t ^ 2 + 1)| ≤ 43 / 10 * 10 ^ (-135 : ℤ) * (|t| ^ 2 + 1)) :
    |log (t + k) + log (-t + k)| ≤ 2 * (43 / 10 * 10 ^ (-135 : ℤ) * (|t| ^ 2 + 1)) ∧
      min |t| 1 ≤ 4 * |log (t + k)| := by
  have error := error_le_min low high
  have top := min_le_right |t| 1
  have sum := abs_log_add_log_le inside near (by linarith)
  have large := min_sub_le_abs_log one sum
  exact ⟨sum, by linarith⟩

theorem le_mul_min (pos : 0 < a) :
    1 ≤ a⁻¹ + a ^ 2 ∧ a ^ 2 + 1 ≤ 2 * ((a⁻¹ + a ^ 2) * min a 1) := by
  rcases le_total a 1 with small | large
  · have inverse : 1 ≤ a⁻¹ := (one_le_inv₀ pos).2 small
    have square : a ^ 2 ≤ 1 := pow_le_one₀ pos.le small
    have product : (a⁻¹ + a ^ 2) * a = 1 + a ^ 3 := by field_simp
    rw [min_eq_left small, product]
    exact ⟨by linarith [sq_nonneg a], by linarith [pow_pos pos 3]⟩
  · have square : 1 ≤ a ^ 2 := one_le_pow₀ large
    have inverse : 0 < a⁻¹ := inv_pos.2 pos
    rw [min_eq_right large]
    exact ⟨by linarith, by linarith⟩

/-- Numbers that are close to opposite logarithms have a sum that is small in proportion. -/
theorem abs_add_le_of_near {u S P : ℝ} (pos : 0 ≤ u) (small : u ≤ 1 / 1000)
    (first : |m - l| ≤ 2 * u * (1 + |l|)) (second : |m' - l'| ≤ 2 * u * (1 + |l'|))
    (sum : |l + l'| ≤ 2 * (43 / 10 * u * S)) (fine : 1000 * u ≤ |l|) (one : 1 ≤ S) (unit : 1 ≤ P)
    (part : S ≤ 8 * (P * |l|)) : |m' + m| ≤ 200 * u * P * |m| := by
  have opposite : |l'| ≤ |l| + 2 * (43 / 10 * u * S) := by
    have triangle := abs_sub_abs_le_abs_sub l' (-l)
    rw [abs_neg, sub_neg_eq_add, add_comm l'] at triangle
    linarith
  have split : |m' + m| ≤ |m' - l'| + |m - l| + |l + l'| := by
    have parts : m' + m = (m' - l') + (m - l) + (l + l') := by ring
    rw [parts]
    exact abs_add_three _ _ _
  have most : |l| ≤ 11 / 10 * |m| := by
    have triangle := abs_sub_abs_le_abs_sub l m
    rw [abs_sub_comm] at triangle
    nlinarith [abs_nonneg l]
  have nonneg : 0 ≤ u * S := mul_nonneg pos (by linarith)
  have unit_le : u ≤ u * S := le_mul_of_one_le_right pos one
  have sum_le : u * S ≤ u * (8 * (P * |l|)) := mul_le_mul_of_nonneg_left part pos
  have log_le : u * |l| ≤ u * (P * |l|) :=
    mul_le_mul_of_nonneg_left (le_mul_of_one_le_left (abs_nonneg l) unit) pos
  have opposite_le : u * |l'| ≤ u * |l| + 1 / 1000 * (2 * (43 / 10 * (u * S))) := by
    have product := mul_le_mul_of_nonneg_left opposite pos
    have square := mul_le_mul_of_nonneg_right small (by linarith : 0 ≤ 2 * (43 / 10 * (u * S)))
    linarith
  have last : u * (P * |l|) ≤ u * (P * (11 / 10 * |m|)) :=
    mul_le_mul_of_nonneg_left (mul_le_mul_of_nonneg_left most (by linarith)) pos
  linarith

end

/-- What the inverse hyperbolic sines of a number and of its opposite are off from being opposite, as a
part of them. -/
def arcsinhError (x : Decimal) : ℚ := 2 * 10 ^ (-133 : ℤ) * (|x.value|⁻¹ + x.value ^ 2)

theorem arcsinhError_lt_one (moderate : x.value = 0 ∨ 10 ^ (-40 : ℤ) ≤ |x.value|)
    (high : |x.value| ≤ 10 ^ 66) : arcsinhError x < 1 := by
  have inverse : |x.value|⁻¹ ≤ 10 ^ 40 := by
    rcases moderate with vanishes | low
    · rw [vanishes, abs_zero, inv_zero]
      positivity
    · refine (inv_anti₀ (by positivity) low).trans_eq ?_
      norm_num
  have square := pow_le_pow_left₀ (abs_nonneg x.value) high 2
  rw [sq_abs] at square
  rw [arcsinhError]
  norm_num at square inverse ⊢
  linarith

theorem arcsinh_zero : (ofReal .zero).arcsinh = .ok (ofReal .zero) := by decide +kernel

theorem abs_arcsinh_add_le (hx : x.IsWorking) (low : 10 ^ (-40 : ℤ) ≤ |x.value|)
    (high : |x.value| ≤ 10 ^ 66) (answer : (ofReal x).arcsinh = .ok (ofReal y))
    (opposite : (ofReal (-x)).arcsinh = .ok (ofReal y')) :
    |y'.value + y.value| ≤ arcsinhError x * |y.value| := by
  have bounded : |x.value| ≤ 10 ^ 400000 :=
    high.trans (pow_le_pow_right₀ (by norm_num) (by norm_num))
  have size : Within 400000 x.value :=
    .inr ⟨(zpow_le_zpow_right₀ (by norm_num) (by norm_num)).trans low, bounded⟩
  obtain ⟨h, root⟩ := exists_hypotenuse hx size
  have mirrored : |(-x).value| = |x.value| := by rw [value_neg, abs_neg]
  obtain ⟨-, near⟩ := abs_sq_hypotenuse_sub_le hx root
  have inside := abs_lt_hypotenuse hx root (high.trans (pow_le_pow_right₀ (by norm_num) (by norm_num)))
  obtain ⟨first, -⟩ := abs_arcsinh_sub_le hx bounded root answer
  obtain ⟨second, -⟩ := abs_arcsinh_sub_le hx.neg (mirrored.trans_le bounded)
    ((hypotenuse_neg x).trans root) opposite
  rw [value_neg, Rat.cast_neg] at second
  have least : 10 ^ (-40 : ℤ) ≤ |(x.value : ℝ)| := by
    have cast := Rat.cast_le (K := ℝ).2 low
    push_cast at cast
    exact cast
  have most : |(x.value : ℝ)| ≤ 10 ^ 66 := by exact_mod_cast high
  have square : |(h.value : ℝ) ^ 2 - ((x.value : ℝ) ^ 2 + 1)| ≤
      43 / 10 * 10 ^ (-135 : ℤ) * (|(x.value : ℝ)| ^ 2 + 1) := by
    have cast := Rat.cast_le (K := ℝ).2 near
    push_cast at cast
    rwa [sq_abs]
  obtain ⟨sum, quarter⟩ := log_add_of_near least most (by exact_mod_cast inside)
    (by exact_mod_cast one_le_hypotenuse root) square
  obtain ⟨unit, part⟩ := le_mul_min (lt_of_lt_of_le (by positivity) least)
  have fine : 1000 * (10 : ℝ) ^ (-135 : ℤ) ≤ |log (x.value + h.value)| := by
    have bottom := (le_min least (zpow_le_one_of_nonpos₀ (by norm_num) (by norm_num))).trans quarter
    norm_num at bottom ⊢
    linarith
  have scaled := mul_le_mul_of_nonneg_left quarter (zero_le_one.trans unit)
  have together := abs_add_le_of_near (by positivity) (by norm_num) first second sum fine
    (by linarith [sq_nonneg |(x.value : ℝ)|]) unit (by linarith)
  rw [← Rat.cast_le (K := ℝ), arcsinhError]
  push_cast
  rw [sq_abs] at together
  refine together.trans_eq ?_
  norm_num

/-- The difference of two large numbers that agree in all digits but the last is too large for the
opposite logarithm. -/
theorem half_le_arcsinh_add (hx : x.IsWorking) (bounded : |x.value| ≤ 10 ^ 400000)
    (root : x.hypotenuse = .ok h) (large : 10 ^ 68 ≤ |x.value|) (longer : |x.value| < h.value)
    (answer : (ofReal x).arcsinh = .ok (ofReal y))
    (opposite : (ofReal (-x)).arcsinh = .ok (ofReal y')) : 1 / 2 ≤ y.value + y'.value := by
  have mirrored : |(-x).value| = |x.value| := by rw [value_neg, abs_neg]
  obtain ⟨first, size⟩ := abs_arcsinh_sub_le hx bounded root answer
  obtain ⟨second, size'⟩ := abs_arcsinh_sub_le hx.neg (mirrored.trans_le bounded)
    ((hypotenuse_neg x).trans root) opposite
  rw [value_neg, Rat.cast_neg] at second size'
  have product : 20 ≤ ((x.value : ℝ) + h.value) * (-x.value + h.value) := by
    have gap := Rat.cast_le (K := ℝ).2 (le_hypotenuse_sub_mul_add hx root large longer)
    push_cast at gap
    have square := sq_abs (x.value : ℝ)
    linarith
  obtain ⟨low, high⟩ := abs_lt.1 (by exact_mod_cast longer : |(x.value : ℝ)| < h.value)
  have sum := Real.log_le_log (by norm_num) product
  rw [Real.log_mul (by linarith) (by linarith)] at sum
  have twenty := Real.one_sub_inv_le_log_of_pos (by norm_num : (0 : ℝ) < 20)
  have below := (abs_le.1 first).1
  have below' := (abs_le.1 second).1
  rw [← Rat.cast_le (K := ℝ)]
  push_cast
  norm_num at below below' size size' twenty ⊢
  linarith

theorem render_ofReal (y : Decimal) (f : ComplexFormat) : (ofReal y).render f = y.render f.number := by
  have none : (ofReal y).im.abs.render f.number = "0" := by
    have rounded : (ofReal y).im.abs.roundTo f.number.digits = .zero :=
      roundTo_eq_self f.number.one_le_digits
    rw [Decimal.render, rounded]
    rfl
  rw [Complex.render]
  exact if_pos none

/-- A number of up to `10 ^ 400000` and its opposite have real inverse hyperbolic sines exactly when
the computed hypotenuse exceeds the number, and so up to `10 ^ 67`. Up to `10 ^ 66` these are opposite
but for a small part of them, and shown so unless they are close to where their rounding changes. From
`10 ^ 68` on they are never opposite. -/
theorem arcsinh_opposite (hx : x.IsWorking) (bounded : |x.value| ≤ 10 ^ 400000)
    (moderate : x.value = 0 ∨ 10 ^ (-40 : ℤ) ≤ |x.value|) :
    ((∃ y y', (ofReal x).arcsinh = .ok (ofReal y) ∧ (ofReal (-x)).arcsinh = .ok (ofReal y')) ↔
      ∃ h, x.hypotenuse = .ok h ∧ |x.value| < h.value) ∧
    (|x.value| ≤ 10 ^ 67 → ∃ h, x.hypotenuse = .ok h ∧ |x.value| < h.value) ∧
    ∀ y y', (ofReal x).arcsinh = .ok (ofReal y) → (ofReal (-x)).arcsinh = .ok (ofReal y') →
      (|x.value| ≤ 10 ^ 66 → |y'.value + y.value| ≤ arcsinhError x * |y.value| ∧
        (nearest 50 (y.value * (1 - arcsinhError x)) =
            nearest 50 (y.value * (1 + arcsinhError x)) →
          (ofReal y').render .full = (-ofReal y).render .full)) ∧
      (10 ^ 68 ≤ |x.value| → 1 / 2 ≤ y.value + y'.value) := by
  have least : (10 : ℚ) ^ (-(400000 : ℕ) : ℤ) ≤ 10 ^ (-40 : ℤ) :=
    zpow_le_zpow_right₀ (by norm_num) (by norm_num)
  obtain ⟨h, root⟩ :=
    exists_hypotenuse hx (moderate.imp_right fun low => ⟨least.trans low, bounded⟩)
  have criterion := exists_arcsinh_neg_iff hx bounded root
  have longer : (∃ h, x.hypotenuse = .ok h ∧ |x.value| < h.value) ↔ |x.value| < h.value := by
    simp only [root, Except.ok.injEq, exists_eq_left']
  rw [criterion, longer]
  refine ⟨Iff.rfl, abs_lt_hypotenuse hx root, fun y y' answer opposite => ⟨fun high => ?_,
    fun large => ?_⟩⟩
  · have near : |y'.value + y.value| ≤ arcsinhError x * |y.value| := by
      rcases moderate with vanishes | low
      · obtain rfl : x = .zero := value_injective (vanishes.trans value_zero.symm)
        rw [arcsinh_zero] at answer
        rw [Decimal.neg_zero_eq, arcsinh_zero] at opposite
        cases answer
        cases opposite
        rw [value_zero, add_zero, abs_zero, mul_zero]
      · exact abs_arcsinh_add_le hx low high answer opposite
    refine ⟨near, fun same => ?_⟩
    rw [← neg_ofReal, render_ofReal, render_ofReal]
    refine render_eq_of_nearest_eq ?_
    rw [← sub_neg_eq_add, ← value_neg, ← abs_neg y.value, ← value_neg] at near
    refine nearest_eq_of_abs_sub_le (by decide) (arcsinhError_lt_one moderate high) near ?_
    rw [value_neg, neg_mul, neg_mul, nearest_neg, nearest_neg]
    exact congrArg Neg.neg same
  · exact half_le_arcsinh_add hx bounded root large (criterion.1 ⟨y, y', answer, opposite⟩) answer
      opposite

/-- The inverse hyperbolic sines of 3E+20 and -3E+20 differ from the ninety-fifth digit on. -/
theorem arcsinh_opposite_large :
    let x : Decimal := ⟨3, 20, .inl (by decide)⟩
    x.IsWorking ∧ |x.value| ≤ 10 ^ 400000 ∧ 10 ^ (-40 : ℤ) ≤ |x.value| ∧
      ∃ y y', (ofReal x).arcsinh = .ok (ofReal y) ∧ (ofReal (-x)).arcsinh = .ok (ofReal y') ∧
        (ofReal y').render .full = (-ofReal y).render .full := by
  intro x
  have working : x.IsWorking := by decide
  have value : x.value = 3 * 10 ^ 20 := by
    rw [Decimal.value]
    norm_num [x]
  have size : |x.value| = 3 * 10 ^ 20 := by
    rw [value]
    norm_num
  have bounded : |x.value| ≤ 10 ^ 400000 := by
    have power : (10 : ℚ) ^ 21 ≤ 10 ^ 400000 := pow_le_pow_right₀ (by norm_num) (by norm_num)
    rw [size]
    exact le_trans (by norm_num) power
  have low : 10 ^ (-40 : ℤ) ≤ |x.value| := by
    rw [size]
    norm_num
  let k : ℕ := 47843461329108968681172306452067986424745023242536
  let y : Decimal := ⟨k * 10 ^ 86 +
    24200429971014026011788651313106496562688730582044687303089463595722784794780891195018, -134,
    .inl (by decide)⟩
  have answer : (ofReal x).arcsinh = .ok (ofReal y) := by decide +kernel
  obtain ⟨criterion, moderate, opposite⟩ := arcsinh_opposite working bounded (.inr low)
  obtain ⟨_, y', known, mirrored⟩ := criterion.2 (moderate (by rw [size]; norm_num))
  cases answer.symm.trans known
  obtain ⟨-, shown⟩ := (opposite y y' answer mirrored).1 (by rw [size]; norm_num)
  refine ⟨working, bounded, low, y, y', answer, mirrored, shown ?_⟩
  -- both ends are rounded to the first fifty digits
  have leading (q : ℚ) (below : (k - 1 / 2 : ℚ) * 10 ^ (-48 : ℤ) ≤ q)
      (above : q < (k + 1 / 2 : ℚ) * 10 ^ (-48 : ℤ)) : nearest 50 q = k * 10 ^ (-48 : ℤ) := by
    have pos : 0 < q := lt_of_lt_of_le (by norm_num [k]) below
    exact (nearest_eq_iff (by decide) (by decide) (by decide) pos).2 ⟨below, above⟩
  have number : y.value = (k * 10 ^ 86 +
      24200429971014026011788651313106496562688730582044687303089463595722784794780891195018) *
        10 ^ (-134 : ℤ) := by
    rw [Decimal.value]
    norm_num [y]
  rw [leading, leading]
  all_goals
    rw [arcsinhError, size, value, number]
    norm_num [k]

/-- The sum of -1E+100 and its hypotenuse vanishes, so that the logarithm in the inverse hyperbolic sine
is refused. That of a whole number of 136 digits comes to minus one, which makes half a turn of it. The
inverse hyperbolic sines of 3E+50 and -3E+50 differ in the digits that are shown. -/
theorem arcsinh_not_opposite :
    let x : Decimal := ⟨1, 100, .inl (by decide)⟩
    let whole : Decimal := ofInt (32 * 10 ^ 134 + 7)
    let large : Decimal := ⟨3, 50, .inl (by decide)⟩
    x.IsWorking ∧ |x.value| ≤ 10 ^ 400000 ∧ 10 ^ (-40 : ℤ) ≤ |x.value| ∧
      (ofReal (-x)).arcsinh = .error (.invalidArgument "ln" .zeroOrNegative) ∧
      whole.IsWorking ∧ (ofReal (-whole)).arcsinh = .ok ⟨.zero, .pi⟩ ∧
      large.IsWorking ∧ ∃ z z', (ofReal large).arcsinh = .ok z ∧
        (ofReal (-large)).arcsinh = .ok z' ∧ z'.render .full ≠ (-z).render .full := by
  intro x whole large
  have size : |x.value| = 10 ^ 100 := by
    rw [Decimal.value]
    norm_num [x]
  have bounded : |x.value| ≤ 10 ^ 400000 := by
    rw [size]
    exact pow_le_pow_right₀ (by norm_num) (by norm_num)
  have low : 10 ^ (-40 : ℤ) ≤ |x.value| := by
    rw [size]
    norm_num
  have apart : (ofReal large).arcsinh.toOption.any (fun z =>
      (ofReal (-large)).arcsinh.toOption.any (fun z' =>
        decide (z'.render .full ≠ (-z).render .full))) = true := by decide +kernel
  obtain ⟨z, answer, rest⟩ := exists_ok_of_any apart
  obtain ⟨z', opposite, shown⟩ := exists_ok_of_any rest
  exact ⟨by decide, bounded, low, by decide +kernel, by decide +kernel, by decide +kernel,
    by decide, z, z', answer, opposite, of_decide_eq_true shown⟩

end Complex

end Calculator
