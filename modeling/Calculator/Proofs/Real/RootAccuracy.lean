import Calculator.Proofs.Real.InverseTangent
import Calculator.Proofs.Real.LogarithmAccuracy
import Calculator.Proofs.Real.Parity

/-!
# How exact square roots are

A root is cut off behind the digits that count, and rounded twice; its logarithm is half of that of the
radicand but for these roundings. The hypotenuse of a triangle is such a root of a rounded sum. Its
square is off by a small part of itself, which is less than one up to 10 ^ 67.
-/

namespace Calculator

open Precision (working exponentBound)
open Real (log)

namespace Precision

variable {p : Precision} {x : Decimal}

/-- The digits of the cut-off root settle its logarithm. -/
theorem abs_log_cutRoot_sub_le (pos : 0 < x.value) :
    |log (p.cutRoot x) - log x.value / 2| ≤ 10 ^ (-p.digits : ℤ) := by
  have root : (0 : ℝ) < p.cutRoot x := by exact_mod_cast cutRoot_pos pos
  have radicand : (0 : ℝ) < x.value := by exact_mod_cast pos
  have least : (p.cutRoot x : ℝ) ^ 2 ≤ x.value := by exact_mod_cast cutRoot_sq_le (p := p) pos
  have most := (Rat.cast_le (K := ℝ)).2 (le_sq_cutRoot (p := p) pos)
  have unit : (0 : ℝ) < 1 + 10 ^ (-p.digits : ℤ) := by positivity
  push_cast at most
  have low := Real.log_le_log (by positivity) least
  have high := Real.log_le_log radicand most
  have step := Real.log_le_sub_one_of_pos unit
  rw [Real.log_pow] at low
  rw [Real.log_pow, Real.log_mul unit.ne' root.ne'] at high
  push_cast at low high
  rw [abs_le]
  constructor <;> linarith

theorem abs_log_longRoot_sub_le (pos : 0 < x.value) :
    |log (p.longRoot x) - log x.value / 2| ≤ 2 * 10 ^ (1 - p.widened.digits : ℤ) := by
  have cut := abs_log_cutRoot_sub_le (p := p.widened) pos
  have rounded := abs_log_nearest_sub_le p.widened_pos (cutRoot_pos (p := p.widened) pos).ne'
  have place := Precision.zpow_le_tenth (by omega : (-p.widened.digits : ℤ) < 1 - p.widened.digits)
  have triangle := abs_sub_le (log (p.longRoot x)) (log (p.widened.cutRoot x)) (log x.value / 2)
  have nonneg : (0 : ℝ) ≤ 10 ^ (1 - p.widened.digits : ℤ) := by positivity
  rw [longRoot] at triangle ⊢
  linarith

end Precision

namespace Decimal

variable {x y : Decimal}

/-- A root has one rounding to ten more digits and one to the working digits. -/
theorem abs_log_sqrt_sub_le (hx : x.IsWorking) (pos : 0 < x.value) (h : x.sqrt = .ok y) :
    0 < y.value ∧ |log y.value - log x.value / 2| ≤ 11 / 10 * 10 ^ (-135 : ℤ) := by
  have digit := working_digits_pos
  have places : working.digits = 136 := rfl
  have wide_places : working.widened.digits = 146 := rfl
  have long := Precision.longRoot_pos (p := working) pos
  have value := value_sqrt hx pos h
  have first := Precision.abs_log_longRoot_sub_le (p := working) pos
  have second := abs_log_nearest_sub_le digit long.ne'
  rw [wide_places] at first
  rw [← value, places] at second
  refine ⟨by rw [value]; exact nearest_pos digit long, ?_⟩
  have triangle := abs_sub_le (log y.value) (log (working.longRoot x)) (log x.value / 2)
  norm_num at first second ⊢
  linarith

/-! ## Hypotenuses -/

/-- The hypotenuse of a right-angled triangle with legs `x` and one. -/
def hypotenuse (x : Decimal) : Except MathError Decimal := do (← (← x.sqr).add 1).sqrt

theorem hypotenuse_eq_ok : x.hypotenuse = .ok y ↔
    ∃ s, x.sqr = .ok s ∧ ∃ r, s.add 1 = .ok r ∧ r.sqrt = .ok y := by
  simp only [hypotenuse, bind_eq_ok, liftM_eq_ok]

theorem hypotenuse_neg (x : Decimal) : (-x).hypotenuse = x.hypotenuse := by
  rw [hypotenuse, sqr_neg, hypotenuse]

theorem exists_hypotenuse (hx : x.IsWorking) (size : Within 400000 x.value) :
    ∃ y, x.hypotenuse = .ok y := by
  have top : exponentBound.toNat = 999999 := rfl
  obtain ⟨s, squared, -⟩ := exists_mul hx.digits_le hx.digits_le ((size.mul size).mono (by omega))
  have nonneg := nonneg_of_sqr squared
  obtain ⟨r, added, value⟩ := exists_add_one (yields_sqr _ _ squared) nonneg
  have pos : 0 < r.value := by
    rw [value]
    exact nearest_pos working_digits_pos (by linarith)
  obtain ⟨y, rooted, -⟩ := exists_sqrt (yields_add _ _ _ added) pos
  exact ⟨y, hypotenuse_eq_ok.2 ⟨s, squared, r, added, rooted⟩⟩

/-- The roundings of the square and of the sum under the root. -/
theorem abs_log_radicand_sub_le {s r : Decimal} (hx : x.IsWorking) (squared : x.sqr = .ok s)
    (added : s.add 1 = .ok r) :
    0 < r.value ∧ |log r.value - log (x.value ^ 2 + 1)| ≤ 2 * 10 ^ (-135 : ℤ) := by
  have digit := working_digits_pos
  have places : working.digits = 136 := rfl
  have nonneg := nonneg_of_sqr squared
  have answer := add_answers (yields_sqr _ _ squared) (by decide : IsWorking 1)
  rw [value_one, reported_eq_ok.1 added] at answer
  have value := answer.value_eq
  have pos : 0 < s.value + 1 := by linarith
  refine ⟨value ▸ nearest_pos digit pos, ?_⟩
  have first := abs_log_nearest_sub_le digit pos.ne'
  rw [← value, places] at first
  -- the square is off by a part of itself, and so by no larger part of the sum
  have square := Rat.cast_le (K := ℝ).2
    (abs_nearest_sub_le (d := working.digits) (q := |x.value| ^ 2))
  rw [← value_mul_self hx squared, roundoff_working, sq_abs,
    abs_of_nonneg (sq_nonneg x.value)] at square
  push_cast at first square
  have sum : (0 : ℝ) < (x.value : ℝ) ^ 2 + 1 := by positivity
  have real : (0 : ℝ) < (s.value : ℝ) + 1 := by exact_mod_cast pos
  have quotient : |((s.value : ℝ) + 1) / ((x.value : ℝ) ^ 2 + 1) - 1| ≤ 5 * 10 ^ (-136 : ℤ) := by
    rw [div_sub_one sum.ne', add_sub_add_right_eq_sub, abs_div, abs_of_pos sum, div_le_iff₀ sum]
    refine square.trans (mul_le_mul_of_nonneg_left (by linarith) (by positivity))
  have second := abs_log_le_of_near_one quotient (by norm_num)
  rw [Real.log_div real.ne' sum.ne'] at second
  have triangle := abs_sub_le (log r.value) (log ((s.value : ℝ) + 1)) (log ((x.value : ℝ) ^ 2 + 1))
  norm_num at first second ⊢
  linarith

/-- The square of the hypotenuse is off by a small part of itself. -/
theorem abs_sq_hypotenuse_sub_le (hx : x.IsWorking) (h : x.hypotenuse = .ok y) :
    0 < y.value ∧
      |y.value ^ 2 - (x.value ^ 2 + 1)| ≤ 43 / 10 * 10 ^ (-135 : ℤ) * (x.value ^ 2 + 1) := by
  obtain ⟨s, squared, r, added, rooted⟩ := hypotenuse_eq_ok.1 h
  obtain ⟨radicand, sum⟩ := abs_log_radicand_sub_le hx squared added
  obtain ⟨pos, root⟩ := abs_log_sqrt_sub_le (yields_add _ _ _ added) radicand rooted
  refine ⟨pos, ?_⟩
  have real : (0 : ℝ) < y.value := by exact_mod_cast pos
  have close : |log ((y.value : ℝ) ^ 2) - log ((x.value : ℝ) ^ 2 + 1)| ≤
      42 / 10 * 10 ^ (-135 : ℤ) := by
    have split : log ((y.value : ℝ) ^ 2) - log r.value = 2 * (log y.value - log r.value / 2) := by
      rw [Real.log_pow]
      push_cast
      ring
    have triangle := abs_sub_le (log ((y.value : ℝ) ^ 2)) (log r.value)
      (log ((x.value : ℝ) ^ 2 + 1))
    rw [split, abs_mul, abs_two] at triangle
    norm_num at sum root triangle ⊢
    linarith
  have near := abs_sub_le_of_abs_log_sub_le (by positivity) (by positivity) (by norm_num) close
  rw [← Rat.cast_le (K := ℝ)]
  push_cast
  refine near.trans (mul_le_mul_of_nonneg_right (by norm_num) (by positivity))

theorem one_le_hypotenuse (h : x.hypotenuse = .ok y) : 1 ≤ y.value := by
  have digit := working_digits_pos
  obtain ⟨s, squared, r, added, rooted⟩ := hypotenuse_eq_ok.1 h
  have nonneg := nonneg_of_sqr squared
  have answer := add_answers (yields_sqr _ _ squared) (by decide : IsWorking 1)
  rw [value_one, reported_eq_ok.1 added] at answer
  have radicand : 1 ≤ r.value := by
    have front := one_le_abs_nearest (q := s.value + 1) digit ((by linarith : 1 ≤ s.value + 1).trans
      (le_abs_self _))
    rwa [abs_of_nonneg (nearest_nonneg (by linarith)), ← answer.value_eq] at front
  have pos : 0 < r.value := by linarith
  have root := Precision.le_longRoot_of_sq_le (p := working) (k := 1) (e := 0) pos (by decide)
    (by norm_num; exact radicand)
  norm_num at root
  have front := one_le_abs_nearest digit (root.trans (le_abs_self _))
  rwa [abs_of_nonneg (nearest_nonneg (by linarith)),
    ← value_sqrt (yields_add _ _ _ added) pos rooted] at front

/-- Number and hypotenuse have a sum. -/
theorem exists_add_hypotenuse (hx : x.IsWorking) (h : x.hypotenuse = .ok y)
    (bounded : |x.value| ≤ 10 ^ 400000) :
    ∃ w, x.add y = .ok w ∧ w.IsWorking ∧ w.value = nearest working.digits (x.value + y.value) := by
  have top : exponentBound.toNat = 999999 := rfl
  obtain ⟨s, -, r, -, rooted⟩ := hypotenuse_eq_ok.1 h
  have hy : y.IsWorking := yields_sqrt _ _ rooted
  obtain ⟨pos, near⟩ := abs_sq_hypotenuse_sub_le hx h
  have size : |y.value - (-x).value| ≤ 10 ^ (400000 + 1) := by
    rw [value_neg, sub_neg_eq_add, pow_succ]
    have one : (1 : ℚ) ≤ 10 ^ 400000 := one_le_pow₀ (by norm_num)
    generalize (10 : ℚ) ^ 400000 = T at bounded one
    have most : y.value ≤ 2 * T := by
      refine le_of_sq_le_sq ?_ (by linarith)
      have high := (abs_le.1 near).2
      have square := pow_le_pow_left₀ (abs_nonneg x.value) bounded 2
      have unit : 1 ≤ T ^ 2 := one_le_pow₀ one
      rw [sq_abs] at square
      norm_num at high
      linarith
    have triangle := abs_add_le y.value x.value
    rw [abs_of_pos pos] at triangle
    linarith
  have within := hy.within_sub hx.neg (one_le_hypotenuse h) (by norm_num) size
  rw [value_neg, sub_neg_eq_add, add_comm y.value] at within
  obtain ⟨w, added, value⟩ := exists_add hx.digits_le hy.digits_le (within.mono (by omega))
  exact ⟨w, added, yields_add _ _ _ added, value⟩

/-- Up to `10 ^ 67` the hypotenuse exceeds the leg. -/
theorem abs_lt_hypotenuse (hx : x.IsWorking) (h : x.hypotenuse = .ok y)
    (moderate : |x.value| ≤ 10 ^ 67) : |x.value| < y.value := by
  obtain ⟨pos, near⟩ := abs_sq_hypotenuse_sub_le hx h
  have square := pow_le_pow_left₀ (abs_nonneg x.value) moderate 2
  rw [sq_abs] at square
  refine abs_lt_of_sq_lt_sq ?_ pos.le
  have low := (abs_le.1 near).1
  norm_num at low square
  linarith

/-- From `10 ^ 68` on it does so by a unit of the last place, if at all. -/
theorem le_hypotenuse_sub_mul_add (hx : x.IsWorking) (h : x.hypotenuse = .ok y)
    (large : 10 ^ 68 ≤ |x.value|) (longer : |x.value| < y.value) :
    20 ≤ (y.value - |x.value|) * (y.value + |x.value|) := by
  obtain ⟨s, -, r, -, rooted⟩ := hypotenuse_eq_ok.1 h
  have hy : y.IsWorking := yields_sqrt _ _ rooted
  have grid := (hy.onGrid (i := 68) (large.trans (longer.le.trans (le_abs_self _)))).add
    (hx.abs.onGrid (i := 68) (by rwa [value_abs, abs_abs])).neg
  rw [← sub_eq_add_neg, value_abs] at grid
  have gap := grid.le_abs (sub_ne_zero.2 longer.ne')
  rw [abs_of_pos (sub_pos.2 longer)] at gap
  have sum : 2 * 10 ^ 68 ≤ y.value + |x.value| := by linarith
  have product := mul_le_mul gap sum (by positivity) (by linarith)
  norm_num at product
  linarith

end Decimal

end Calculator
