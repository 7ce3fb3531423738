import Calculator.Proofs.Precision.RootOfSquare
import Calculator.Proofs.Real.Domain

/-!
# Square roots of squares

The root of the rounded square of a number is the magnitude of the number exactly when the rounding
has not moved the square too far, and the leading part of the number decides that as a rule.
-/

namespace Calculator

open Precision (working Answers)

namespace Decimal

variable {x y square : Decimal}

/-! ## Square roots of working values -/

theorem sqrt_answers (hx : x.IsWorking) (pos : 0 < x.value) :
    Answers working.digits (working.longRoot x) (working.sqrt x) :=
  Precision.sqrt_answers pos (hx.digits_le.trans (Nat.le_add_right _ _)) working_digits_pos

/-- Of a positive number the root is what the primitive answers. -/
theorem sqrt_eq_ok_iff (pos : 0 < x.value) : x.sqrt = .ok y ↔ working.sqrt x = .ok y := by
  have guard : x.isNegative = false := isNegative_eq_false pos.le
  unfold sqrt
  rw [guard]
  cases working.sqrt x with
  | ok => exact ⟨fun h => congrArg _ (Except.ok.inj h), fun h => congrArg _ (Except.ok.inj h)⟩
  | error => exact ⟨nofun, nofun⟩

theorem value_sqrt (hx : x.IsWorking) (pos : 0 < x.value) (h : x.sqrt = .ok y) :
    y.value = nearest working.digits (working.longRoot x) := by
  have answer := sqrt_answers hx pos
  rw [(sqrt_eq_ok_iff pos).1 h] at answer
  exact answer.value_eq

theorem sqrt_eq_iff (hx : x.IsWorking) (pos : 0 < x.value) (hy : y.IsWorking) :
    x.sqrt = .ok y ↔ nearest working.digits (working.longRoot x) = y.value := by
  constructor
  · exact fun h => (value_sqrt hx pos h).symm
  · intro rounded
    rw [sqrt_eq_ok_iff pos]
    have answer := sqrt_answers hx pos
    exact answer.unique working_digits_pos (.value y rounded.symm (rounded ▸ hy.inRange))

/-- The unit of the last of the digits that a number is computed with. -/
def lastPlace (x : Decimal) : ℚ := 10 ^ (x.adjusted - working.digits + 1)

/-- The magnitude of a working value, as an integer of all digits in units of the last place. -/
theorem IsWorking.exists_magnitude (hx : x.IsWorking) (nonzero : x.value ≠ 0) :
    ∃ (k : ℕ) (e : ℤ), 10 ^ (working.digits - 1) ≤ k ∧ k < 10 ^ working.digits ∧
      |x.value| = k * 10 ^ e ∧ x.lastPlace = 10 ^ e ∧ e + working.digits - 1 = x.adjusted := by
  have pos : 0 < x.abs.value := by rwa [value_abs, abs_pos]
  obtain ⟨k, e, low, high, magnitude, place⟩ := exists_full hx.abs.digits_le pos
  have same : x.abs.adjusted = x.adjusted := rfl
  rw [same] at place
  refine ⟨k, e, low, high, (value_abs x).symm.trans magnitude, ?_, place⟩
  rw [lastPlace, ← place]
  congr 1
  ring

/-! ## Squares -/

theorem value_mul_self (hx : x.IsWorking) (h : x.mul x = .ok square) :
    square.value = nearest working.digits (|x.value| ^ 2) := by
  have answer := mul_answers hx hx
  rw [reported_eq_ok.1 h] at answer
  rw [answer.value_eq, sq_abs, pow_two]

theorem value_mul_self_pos (hx : x.IsWorking) (nonzero : x.value ≠ 0) (h : x.mul x = .ok square) :
    0 < square.value := by
  rw [value_mul_self hx h]
  exact nearest_pos working_digits_pos (pow_pos (abs_pos.2 nonzero) 2)

/-- An exact square has the magnitude as its root. -/
theorem sqrt_of_exact_mul (hx : x.IsWorking) (nonzero : x.value ≠ 0) (h : x.mul x = .ok square)
    (noRounding : square.value = |x.value| ^ 2) : square.sqrt = .ok x.abs := by
  obtain ⟨k, e, low, high, magnitude, -⟩ := hx.exists_magnitude nonzero
  have some : 0 < k := lt_of_lt_of_le (by positivity) low
  rw [magnitude] at noRounding
  have root := Precision.longRoot_of_sq high some noRounding
  rw [sqrt_eq_iff (isWorking_of_mul h) (value_mul_self_pos hx nonzero h) hx.abs, root, value_abs,
    magnitude]
  exact nearest_natCast_mul high working_digits_pos

/-- The root of the square of a nonzero number is its magnitude when the square lies between the
squares of two halves around it. A power of ten is not inside its decade; its square is exact. -/
theorem sqrt_of_mul_eq_abs_iff (hx : x.IsWorking) (nonzero : x.value ≠ 0)
    (h : x.mul x = .ok square) :
    square.sqrt = .ok x.abs ↔
      (|x.value| - (1 / 2 + 5 / 10 ^ 11) * x.lastPlace) ^ 2 ≤ square.value ∧
        square.value < (|x.value| + (1 / 2 - 5 / 10 ^ 11) * x.lastPlace) ^ 2 := by
  obtain ⟨k, e, low, high, magnitude, place, -⟩ := hx.exists_magnitude nonzero
  have value := value_mul_self hx h
  have pos := value_mul_self_pos hx nonzero h
  have unit := ten_zpow_pos e
  have lower : (k : ℚ) * 10 ^ e - (1 / 2 + 5 / 10 ^ 11) * 10 ^ e =
      ((k : ℚ) - 1 / 2 - 5 / 10 ^ 11) * 10 ^ e := by ring
  have upper : (k : ℚ) * 10 ^ e + (1 / 2 - 5 / 10 ^ 11) * 10 ^ e =
      ((k : ℚ) + 1 / 2 - 5 / 10 ^ 11) * 10 ^ e := by ring
  rw [place, magnitude, lower, upper]
  rcases low.eq_or_lt with rfl | inside
  · have one : (1 : ℚ) ≤ (10 ^ (working.digits - 1) : ℕ) := by exact_mod_cast Nat.one_le_pow' _ 9
    rw [magnitude, Precision.nearest_sq_pow working_digits_pos] at value
    rw [value]
    refine iff_of_true (sqrt_of_exact_mul hx nonzero h (by rw [value, magnitude])) ⟨?_, ?_⟩
    · refine pow_le_pow_left₀ (mul_nonneg (by linarith) unit.le) ?_ 2
      exact mul_le_mul_of_nonneg_right (by linarith) unit.le
    · refine pow_lt_pow_left₀ ?_ (mul_nonneg (by linarith) unit.le) two_ne_zero
      exact mul_lt_mul_of_pos_right (by linarith) unit
  · rw [sqrt_eq_iff (isWorking_of_mul h) pos hx.abs, value_abs, magnitude]
    exact Precision.nearest_longRoot_eq_iff pos inside high working_digits_pos

/-- So it is when the square is exact, and when the leading part of the number is below the root of
ten or from 5.1 on. -/
theorem sqrt_of_mul_eq_abs (hx : x.IsWorking) (nonzero : x.value ≠ 0) (h : x.mul x = .ok square)
    (favourable : square.value = x.value ^ 2 ∨ x.value ^ 2 < 10 ^ (2 * x.adjusted + 1) ∨
      51 / 10 * 10 ^ x.adjusted ≤ |x.value|) : square.sqrt = .ok x.abs := by
  obtain ⟨k, e, low, high, magnitude, -, place⟩ := hx.exists_magnitude nonzero
  have value := value_mul_self hx h
  have pos := value_mul_self_pos hx nonzero h
  have unit := ten_zpow_pos e
  rw [magnitude] at value
  have some := working_digits_pos
  have leading_unit : (10 : ℚ) ^ x.adjusted = 10 ^ (working.digits - 1) * 10 ^ e := by
    have exponent : e + (working.digits : ℤ) - 1 = (working.digits - 1 : ℕ) + e := by omega
    rw [← place, exponent, ten_zpow_add, zpow_natCast]
  rw [← sq_abs x.value] at favourable
  rcases low.eq_or_lt with rfl | inside
  · rw [Precision.nearest_sq_pow working_digits_pos, ← magnitude] at value
    exact sqrt_of_exact_mul hx nonzero h value
  · rcases favourable with noRounding | leading
    · exact sqrt_of_exact_mul hx nonzero h noRounding
    · rw [sqrt_eq_iff (isWorking_of_mul h) pos hx.abs, value_abs, magnitude]
      refine Precision.nearest_longRoot_of_nearest_sq pos inside high (by decide) ?_ value
      rw [magnitude] at leading
      refine leading.imp (fun front => ?_) fun back => ?_
      · have bound : (10 : ℚ) ^ (2 * x.adjusted + 1) =
            10 ^ (working.digits + (working.digits - 1)) * (10 ^ e) ^ 2 := by
          have exponent : 2 * (e + (working.digits : ℤ) - 1) + 1 =
              (working.digits + (working.digits - 1) : ℕ) + e * 2 := by omega
          rw [← place, exponent, ten_zpow_add, zpow_natCast, zpow_mul]
          rfl
        rw [bound, mul_pow, mul_lt_mul_iff_of_pos_right (pow_pos unit 2)] at front
        exact_mod_cast front
      · rw [leading_unit, ← mul_assoc, mul_le_mul_iff_of_pos_right unit] at back
        have tenfold : (51 : ℚ) * 10 ^ (working.digits - 1) ≤ 10 * k := by linarith
        exact_mod_cast tenfold

end Decimal

end Calculator
