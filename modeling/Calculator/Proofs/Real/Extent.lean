import Calculator.Proofs.Decimal.Decade
import Calculator.Proofs.Real.Closure
import Calculator.Proofs.Real.Drift

/-!
# Results within the bounds of the exponents

An operation answers a value when its exact result is zero or of a size within the bounds. Products,
quotients and roundings of numbers whose sizes are known are such results. A difference may be as
small as can be, but numbers that are multiples of one unit have a difference that is zero or at least
this unit, and a rounded number is a multiple of the last of its places.
-/

namespace Calculator

open Decimal (ten_zpow_pos ten_zpow_add ten_zpow_eq_mul)
open Precision (working exponentBound InRange Answers)

variable {d e f m n : ℕ} {i j : ℤ} {q r x y : ℚ}

/-! ## Sizes -/

/-- Zero, or of a size between `10 ^ -e` and `10 ^ e`. -/
def Within (e : ℕ) (q : ℚ) : Prop := q = 0 ∨ (10 : ℚ) ^ (-e : ℤ) ≤ |q| ∧ |q| ≤ 10 ^ e

/-- Rounding does not pass a power of ten. -/
theorem abs_nearest_le_zpow (digit : 0 < d) (h : |q| ≤ 10 ^ i) : |nearest d q| ≤ 10 ^ i := by
  have unit := nearest_pow_mul (e := i) digit 0
  rw [pow_zero, one_mul] at unit
  have bound := abs_nearest_mono (d := d) digit (h.trans_eq (abs_of_pos (ten_zpow_pos i)).symm)
  rwa [unit, abs_of_pos (ten_zpow_pos i)] at bound

/-- Nor does it fall below one. -/
theorem zpow_le_abs_nearest (digit : 0 < d) (h : 10 ^ i ≤ |q|) : 10 ^ i ≤ |nearest d q| := by
  have unit := nearest_pow_mul (e := i) digit 0
  rw [pow_zero, one_mul] at unit
  have bound := abs_nearest_mono (d := d) digit ((abs_of_pos (ten_zpow_pos i)).trans_le h)
  rwa [unit, abs_of_pos (ten_zpow_pos i)] at bound

namespace Within

/-- One is of every size. -/
theorem one : Within e 1 := by
  refine .inr ⟨?_, ?_⟩
  · rw [abs_one, zpow_neg, zpow_natCast]
    exact inv_le_one_of_one_le₀ (one_le_pow₀ (by norm_num))
  · rw [abs_one]
    exact one_le_pow₀ (by norm_num)

/-- A natural number of few digits. -/
theorem natCast (few : n < 10 ^ e) : Within e n := by
  rcases n.eq_zero_or_pos with rfl | pos
  · exact .inl Nat.cast_zero
  · have whole : (1 : ℚ) ≤ n := by exact_mod_cast pos
    refine .inr ⟨?_, ?_⟩
    · rw [Nat.abs_cast]
      exact (zpow_le_one_of_nonpos₀ (by norm_num) (by omega)).trans whole
    · rw [Nat.abs_cast]
      exact_mod_cast few.le

/-- The bounds may be wider. -/
theorem mono (h : Within e q) (le : e ≤ f) : Within f q := by
  refine h.imp_right fun ⟨low, high⟩ => ⟨?_, ?_⟩
  · exact (zpow_le_zpow_right₀ (by norm_num) (by omega)).trans low
  · exact high.trans (pow_le_pow_right₀ (by norm_num) le)

theorem neg (h : Within e q) : Within e (-q) := by
  rw [Within, neg_eq_zero, abs_neg]
  exact h

/-- The bounds of a product are those of its factors together. -/
theorem mul (hq : Within e q) (hr : Within f r) : Within (e + f) (q * r) := by
  rcases hq with rfl | ⟨low, high⟩
  · exact .inl (zero_mul r)
  · rcases hr with rfl | ⟨low', high'⟩
    · exact .inl (mul_zero q)
    · refine .inr ⟨?_, ?_⟩
      · rw [abs_mul, Nat.cast_add, neg_add, ten_zpow_add]
        exact mul_le_mul low low' (ten_zpow_pos _).le (abs_nonneg q)
      · rw [abs_mul, pow_add]
        exact mul_le_mul high high' (abs_nonneg r) (by positivity)

theorem inv (h : Within e q) : Within e q⁻¹ := by
  rcases h with rfl | ⟨low, high⟩
  · exact .inl inv_zero
  · have pos : 0 < |q| := (ten_zpow_pos _).trans_le low
    refine .inr ⟨?_, ?_⟩
    · rw [abs_inv, zpow_neg, zpow_natCast]
      exact inv_anti₀ pos high
    · rw [abs_inv, inv_le_comm₀ pos (by positivity), ← zpow_natCast, ← zpow_neg]
      exact low

/-- So are those of a quotient. -/
theorem div (hq : Within e q) (hr : Within f r) : Within (e + f) (q / r) := by
  rw [div_eq_mul_inv]
  exact hq.mul hr.inv

/-- And those of a power are as many times its base's. -/
theorem pow (h : Within e q) (n : ℕ) : Within (e * n) (q ^ n) := by
  induction n with
  | zero =>
    rw [pow_zero]
    exact one
  | succ n ih =>
    rw [pow_succ, Nat.mul_succ]
    exact ih.mul h

/-- A moderate number of roundings moves the size by less than one place. -/
theorem of_drift (digit : 0 < d) (few : 4 * n * roundoff d ≤ 1) (drift : Drift d n x y)
    (h : Within e y) : Within (e + 1) x := by
  rcases h with rfl | ⟨low, high⟩
  · exact .inl ((drift.eq_zero_iff digit).2 rfl)
  · have some : 0 ≤ n * roundoff d := mul_nonneg n.cast_nonneg (roundoff_pos d).le
    have close := abs_le.1 (abs_abs_sub_abs_le x y |>.trans (drift.abs_sub_le digit (by linarith)))
    have part : 2 * n * roundoff d * |y| ≤ 1 / 2 * |y| :=
      mul_le_mul_of_nonneg_right (by linarith) (abs_nonneg y)
    refine .inr ⟨?_, ?_⟩
    · have tenth : (10 : ℚ) ^ (-(e + 1 : ℕ) : ℤ) = 1 / 10 * 10 ^ (-e : ℤ) := by
        rw [Nat.cast_succ, neg_add, ten_zpow_add]
        norm_num
        ring
      have pos := ten_zpow_pos (-e : ℤ)
      rw [tenth]
      linarith
    · rw [pow_succ]
      have pos := abs_nonneg y
      linarith

/-- A single rounding does not move the size past a power of ten. -/
theorem rounded (digit : 0 < d) (h : Within e q) : Within e (nearest d q) := by
  rcases h with rfl | ⟨low, high⟩
  · exact .inl nearest_zero
  · have front := zpow_le_abs_nearest digit low
    have back := abs_nearest_le_zpow (i := e) digit (by rwa [zpow_natCast])
    rw [zpow_natCast] at back
    exact .inr ⟨front, back⟩

/-- What lies within the bounds of the exponents is answered. -/
theorem inRange_nearest (digit : 0 < d) (h : Within exponentBound.toNat q) :
    InRange (nearest d q) := by
  rcases h with rfl | ⟨low, high⟩
  · exact .inl nearest_zero
  · have whole : ((exponentBound.toNat : ℕ) : ℤ) = exponentBound := by decide
    rw [whole] at low
    rw [← zpow_natCast, whole] at high
    have front := zpow_le_abs_nearest digit low
    have back := abs_nearest_le_zpow digit high
    have some : 0 < |nearest d q| := (ten_zpow_pos _).trans_le front
    refine .inr ⟨?_, ?_⟩
    · rw [← Int.zpow_le_iff_le_log (b := 10) (by decide) some]
      exact_mod_cast front
    · have log := Int.log_mono_right (b := 10) some back
      have power : Int.log 10 ((10 : ℚ) ^ exponentBound) = exponentBound := by
        exact_mod_cast Int.log_zpow (R := ℚ) (b := 10) (by decide) exponentBound
      omega

end Within

/-! ## Grids -/

/-- A multiple of `10 ^ i`. -/
def OnGrid (i : ℤ) (q : ℚ) : Prop := ∃ c : ℤ, q = c * 10 ^ i

namespace OnGrid

theorem zero : OnGrid i 0 := ⟨0, by rw [Int.cast_zero, zero_mul]⟩

/-- A multiple of a unit is one of a smaller unit. -/
theorem mono (h : OnGrid i q) (finer : j ≤ i) : OnGrid j q := by
  obtain ⟨c, rfl⟩ := h
  refine ⟨c * 10 ^ (i - j).toNat, ?_⟩
  rw [ten_zpow_eq_mul finer]
  push_cast
  ring

theorem neg (h : OnGrid i q) : OnGrid i (-q) := by
  obtain ⟨c, rfl⟩ := h
  exact ⟨-c, by rw [Int.cast_neg, neg_mul]⟩

/-- Sums of multiples are multiples. -/
theorem add (hq : OnGrid i q) (hr : OnGrid i r) : OnGrid i (q + r) := by
  obtain ⟨c, rfl⟩ := hq
  obtain ⟨c', rfl⟩ := hr
  exact ⟨c + c', by rw [Int.cast_add, add_mul]⟩

theorem intCast_mul (h : OnGrid i q) (k : ℤ) : OnGrid i (k * q) := by
  obtain ⟨c, rfl⟩ := h
  exact ⟨k * c, by rw [Int.cast_mul, mul_assoc]⟩

/-- Only zero is smaller than the unit. -/
theorem le_abs (h : OnGrid i q) (nonzero : q ≠ 0) : 10 ^ i ≤ |q| := by
  obtain ⟨c, rfl⟩ := h
  have unit := ten_zpow_pos i
  have some : c ≠ 0 := by
    rintro rfl
    rw [Int.cast_zero, zero_mul] at nonzero
    exact nonzero rfl
  have whole : (1 : ℚ) ≤ |(c : ℚ)| := by exact_mod_cast Int.one_le_abs some
  rw [abs_mul, abs_of_pos unit]
  exact le_mul_of_one_le_left unit.le whole

/-- A multiple of a small unit is zero or not smaller than it. -/
theorem within (h : OnGrid (-e) q) (bounded : |q| ≤ 10 ^ e) : Within e q := by
  by_cases vanishes : q = 0
  · exact .inl vanishes
  · exact .inr ⟨h.le_abs vanishes, bounded⟩

/-- A rounded number is a multiple of the place of rounding. -/
theorem nearest_place (d : ℕ) (q : ℚ) : OnGrid (place d q) (nearest d q) := by
  refine ⟨SignType.sign q * round (|q| / 10 ^ place d q), ?_⟩
  rw [nearest, Int.cast_mul, SignType.intCast_cast, mul_assoc]

/-- Rounding does not leave the grid. -/
theorem nearest (h : OnGrid i q) (d : ℕ) : OnGrid i (nearest d q) := by
  rcases le_total i (place d q) with coarser | finer
  · exact (nearest_place d q).mono coarser
  · obtain ⟨c, rfl⟩ := h
    rw [nearest_of_multiple finer]
    exact ⟨c, rfl⟩

end OnGrid

/-- The places of a rounded number end `d` places behind its first one. -/
theorem Within.onGrid_nearest (h : Within e q) : OnGrid (-(e + d : ℕ)) (nearest d q) := by
  rcases h with rfl | ⟨low, -⟩
  · rw [nearest_zero]
    exact .zero
  · have pos : 0 < |q| := (ten_zpow_pos _).trans_le low
    have log := (Int.zpow_le_iff_le_log (b := 10) (by decide) pos).1 (by exact_mod_cast low)
    refine (OnGrid.nearest_place d q).mono ?_
    rw [place]
    omega

/-! ## Operations that answer a value -/

namespace Decimal

variable {x y z : Decimal}

/-- A multiple of a small unit has no more zeros behind the point than the unit has. -/
theorem le_adjusted_of_onGrid (nonzero : x.value ≠ 0) (bounded : |x.value| ≤ 10 ^ d)
    (grid : OnGrid (-d) x.value) : -d ≤ x.adjusted := by
  obtain ⟨bottom, -⟩ := (grid.within bounded).resolve_left nonzero
  have log := (Int.zpow_le_iff_le_log (b := 10) (by decide) (abs_pos.2 nonzero)).1
    (by exact_mod_cast bottom)
  rwa [← adjusted_eq_log (mt value_eq_zero_iff.2 nonzero)] at log

/-- An exact result whose rounded value is within the bounds is answered with it. -/
theorem exists_reported_of_inRange {q : ℚ} {r : Except Condition Decimal} (digit : 0 < d)
    (answer : Answers d q r) (fits : InRange (nearest d q)) :
    ∃ z, reported r = .ok z ∧ z.value = nearest d q := by
  cases answer with
  | value z rounded _ => exact ⟨z, rfl, rounded⟩
  | overflow nonzero large =>
    have kept := mt (nearest_eq_zero_iff digit).1 nonzero
    exact absurd fits (Precision.not_inRange kept (.inl large))
  | underflow nonzero small =>
    have kept := mt (nearest_eq_zero_iff digit).1 nonzero
    exact absurd fits (Precision.not_inRange kept (.inr small))

/-- An exact result within the bounds is answered. -/
theorem exists_reported {q : ℚ} {r : Except Condition Decimal} (digit : 0 < d)
    (answer : Answers d q r) (h : Within exponentBound.toNat q) :
    ∃ z, reported r = .ok z ∧ z.value = nearest d q :=
  exists_reported_of_inRange digit answer (h.inRange_nearest digit)

/-- A working value that is not too large is within the bounds. -/
theorem IsWorking.within (hx : x.IsWorking) (bounded : |x.value| ≤ 10 ^ exponentBound.toNat) :
    Within exponentBound.toNat x.value := by
  by_cases vanishes : x.value = 0
  · exact .inl vanishes
  · refine .inr ⟨?_, bounded⟩
    have whole : ((exponentBound.toNat : ℕ) : ℤ) = exponentBound := by decide
    have log := (hx.inRange.resolve_left vanishes).1
    rw [whole]
    exact_mod_cast (Int.zpow_le_iff_le_log (b := 10) (by decide) (abs_pos.2 vanishes)).2 log

/-- A working value is a multiple of the last of its 136 places. -/
theorem IsWorking.onGrid (hx : x.IsWorking) (front : 10 ^ i ≤ |x.value|) :
    OnGrid (i - 135) x.value := by
  have kept := nearest_value hx.digits_le working_digits_pos
  have pos : 0 < |x.value| := (ten_zpow_pos i).trans_le front
  have log := (Int.zpow_le_iff_le_log (b := 10) (by decide) pos).1 (by exact_mod_cast front)
  have places : working.digits = 136 := rfl
  rw [← kept]
  refine (OnGrid.nearest_place working.digits x.value).mono ?_
  rw [place, places]
  omega

/-- The difference of working values, the first of which is at least one, has no more than 136 zeros
behind the point: the other one is a multiple of a unit of this size, or it is not close. -/
theorem IsWorking.within_sub {d : ℕ} (hx : x.IsWorking) (hy : y.IsWorking) (above : 1 ≤ x.value)
    (far : 136 ≤ d) (bounded : |x.value - y.value| ≤ 10 ^ d) : Within d (x.value - y.value) := by
  rcases lt_or_ge |y.value| (10 ^ (-1 : ℤ)) with small | large
  · refine .inr ⟨le_trans ?_ (le_abs_self _), bounded⟩
    have least : (10 : ℚ) ^ (-d : ℤ) ≤ 10 ^ (-1 : ℤ) := zpow_le_zpow_right₀ (by norm_num) (by omega)
    have near := (abs_lt.1 small).2
    norm_num at least near ⊢
    linarith
  · have front : (10 : ℚ) ^ (-1 : ℤ) ≤ |x.value| :=
      (zpow_le_one_of_nonpos₀ (by norm_num) (by norm_num)).trans (above.trans (le_abs_self _))
    have grid := (hx.onGrid front).add (hy.onGrid large).neg
    rw [← sub_eq_add_neg] at grid
    exact (grid.mono (by omega)).within bounded

theorem lift_eq_self (few : x.digits ≤ working.digits) : working.lift x = x := roundTo_eq_self few

section

variable (hx : x.digits ≤ working.digits) (hy : y.digits ≤ working.digits)

include hx hy

/-- A sum within the bounds is answered with its rounding; so are the other operations. -/
theorem exists_add (h : Within exponentBound.toNat (x.value + y.value)) :
    ∃ z, x.add y = .ok z ∧ z.value = nearest working.digits (x.value + y.value) := by
  have answer := Precision.add_answers x y working_digits_pos
  rw [lift_eq_self hx, lift_eq_self hy] at answer
  exact exists_reported working_digits_pos answer h

theorem exists_sub (h : Within exponentBound.toNat (x.value - y.value)) :
    ∃ z, x.sub y = .ok z ∧ z.value = nearest working.digits (x.value - y.value) := by
  have answer := Precision.subtract_answers x y working_digits_pos
  rw [lift_eq_self hx, lift_eq_self hy] at answer
  exact exists_reported working_digits_pos answer h

theorem exists_mul (h : Within exponentBound.toNat (x.value * y.value)) :
    ∃ z, x.mul y = .ok z ∧ z.value = nearest working.digits (x.value * y.value) := by
  have answer := Precision.multiply_answers x y working_digits_pos
  rw [lift_eq_self hx, lift_eq_self hy] at answer
  exact exists_reported working_digits_pos answer h

theorem exists_div (nonzero : y.value ≠ 0) (h : Within exponentBound.toNat (x.value / y.value)) :
    ∃ z, x.div y = .ok z ∧ z.value = nearest working.digits (x.value / y.value) := by
  have answer := Precision.divide_answers (a := x) working_digits_pos nonzero
  rw [lift_eq_self hx, lift_eq_self hy] at answer
  exact exists_reported working_digits_pos answer h

end

end Decimal

end Calculator
