import Calculator.Precision.Arithmetic
import Calculator.Proofs.Decimal.Rounding

/-!
# What the rounded operations answer

A primitive answers the rounded value of an exact rational result, or the bound that the rounded
value exceeds. `Answers` is this relation between an exact result and an answer; it leaves one
answer to a result, so two operations with the same exact result have the same answer.
-/

namespace Calculator.Precision

open Decimal (ofParts ten_zpow_pos)

/-- The leading digit stands within the exponent bounds. -/
def InRange (q : ℚ) : Prop :=
  q = 0 ∨ -exponentBound ≤ Int.log 10 |q| ∧ Int.log 10 |q| ≤ exponentBound

/-- What an operation that rounds to `d` digits answers when `q` is the exact result. -/
inductive Answers (d : ℕ) (q : ℚ) : Except Condition Decimal → Prop
  | value (x : Decimal) (rounded : x.value = nearest d q) (fits : InRange (nearest d q)) :
      Answers d q (.ok x)
  | overflow (nonzero : q ≠ 0) (large : exponentBound < Int.log 10 |nearest d q|) :
      Answers d q (.error .overflow)
  | underflow (nonzero : q ≠ 0) (small : Int.log 10 |nearest d q| < -exponentBound) :
      Answers d q (.error .underflow)

variable {p : Precision} {d : ℕ} {q r : ℚ}

/-- A result beyond one of the bounds is not in range. -/
theorem not_inRange (nonzero : q ≠ 0)
    (beyond : exponentBound < Int.log 10 |q| ∨ Int.log 10 |q| < -exponentBound) :
    ¬InRange q := by
  rintro (vanishes | bounds)
  · exact nonzero vanishes
  · omega

/-- There is one answer to a result. -/
theorem Answers.unique {x y : Except Condition Decimal} (digit : 0 < d) (hx : Answers d q x)
    (hy : Answers d q y) : x = y := by
  have bounds : -exponentBound ≤ exponentBound := by decide
  have keep : q ≠ 0 → nearest d q ≠ 0 := mt (nearest_eq_zero_iff digit).1
  cases hx with
  | value x vx fits =>
    cases hy with
    | value y vy _ => rw [Decimal.value_injective (vx.trans vy.symm)]
    | overflow nonzero large => exact absurd fits (not_inRange (keep nonzero) (.inl large))
    | underflow nonzero small => exact absurd fits (not_inRange (keep nonzero) (.inr small))
  | overflow nonzero large =>
    cases hy with
    | value y _ fits => exact absurd fits (not_inRange (keep nonzero) (.inl large))
    | overflow => rfl
    | underflow _ small => omega
  | underflow nonzero small =>
    cases hy with
    | value y _ fits => exact absurd fits (not_inRange (keep nonzero) (.inr small))
    | overflow _ large => omega
    | underflow => rfl

/-- What is answered is rounded. -/
theorem Answers.value_eq {x : Decimal} (h : Answers d q (.ok x)) : x.value = nearest d q := by
  cases h
  assumption

/-- What is answered is within the bounds. -/
theorem Answers.inRange {x : Decimal} (h : Answers d q (.ok x)) : InRange x.value := by
  cases h with
  | value _ rounded fits => rwa [rounded]

/-! ## Bounds as powers of ten -/

/-- A number in range is below the powers of ten above the bound. -/
theorem InRange.abs_lt {k : ℕ} (h : InRange q) (bound : exponentBound < k) : |q| < 10 ^ k := by
  rcases h with vanishes | ⟨-, high⟩
  · rw [vanishes, abs_zero]
    exact pow_pos (by norm_num) k
  · have log : |q| < 10 ^ (Int.log 10 |q| + 1) := by
      exact_mod_cast Int.lt_zpow_succ_log_self (by decide : 1 < 10) |q|
    rw [← zpow_natCast]
    exact log.trans_le (zpow_le_zpow_right₀ (by norm_num) (by omega))

/-- A result that overflows is large. -/
theorem le_abs_nearest_of_large {k : ℕ} (digit : 0 < d) (nonzero : q ≠ 0)
    (large : exponentBound < Int.log 10 |nearest d q|) (bound : k ≤ exponentBound + 1) :
    10 ^ k ≤ |nearest d q| := by
  have pos : 0 < |nearest d q| := abs_pos.2 (mt (nearest_eq_zero_iff digit).1 nonzero)
  have log : 10 ^ Int.log 10 |nearest d q| ≤ |nearest d q| := by
    exact_mod_cast Int.zpow_log_le_self (by decide : 1 < 10) pos
  rw [← zpow_natCast]
  exact (zpow_le_zpow_right₀ (by norm_num) (by omega)).trans log

/-! ## Exact results beyond the bounds -/

/-- Rounding does not bring a result back that is too large. -/
theorem Answers.of_large (digit : 0 < d) (large : exponentBound < Int.log 10 |q|) :
    Answers d q (.error .overflow) := by
  have nonzero : q ≠ 0 := by
    rintro rfl
    rw [abs_zero, Int.log_of_right_le_zero _ le_rfl] at large
    exact absurd large (by decide)
  have front := zpow_log_le_nearest (abs_pos.2 nonzero) digit
  rw [← abs_nearest] at front
  have pos : 0 < |nearest d q| := (ten_zpow_pos _).trans_le front
  have log := (Int.zpow_le_iff_le_log (b := 10) (by decide) pos).1 (by exact_mod_cast front)
  exact .overflow nonzero (by omega)

/-- Rounding can bring a small result up by one place only. -/
theorem Answers.of_small (digit : 0 < d) (nonzero : q ≠ 0)
    (small : Int.log 10 |q| + 1 < -exponentBound) : Answers d q (.error .underflow) := by
  have next := nearest_le_zpow_succ (d := d) (abs_pos.2 nonzero)
  rw [← abs_nearest] at next
  have pos : 0 < |nearest d q| := abs_pos.2 (mt (nearest_eq_zero_iff digit).1 nonzero)
  have log := Int.log_mono_right (b := 10) pos next
  have power : Int.log 10 ((10 : ℚ) ^ (Int.log 10 |q| + 1)) = Int.log 10 |q| + 1 := by
    exact_mod_cast Int.log_zpow (R := ℚ) (b := 10) (by decide) (Int.log 10 |q| + 1)
  exact .underflow nonzero (by omega)

/-! ## The check of the size -/

/-- The check of a rounded result is an answer for the exact one. -/
theorem check_answers {x : Decimal} (rounded : x.value = nearest d q) :
    Answers d q (check x) := by
  unfold check
  split
  · rename_i vanishes
    have value_eq := Decimal.isZero_iff_value.1 vanishes
    exact .value x rounded (.inl (rounded ▸ value_eq))
  · rename_i nonzero
    have nonzero_value : x.value ≠ 0 := mt Decimal.isZero_iff_value.2 nonzero
    have nonzero_result : q ≠ 0 := by
      rintro rfl
      exact nonzero_value (by rw [rounded, nearest_zero])
    have log := Decimal.adjusted_eq_log (mt Decimal.value_eq_zero_iff.2 nonzero_value)
    rw [rounded] at log
    split
    · exact .overflow nonzero_result (by omega)
    · split
      · exact .underflow nonzero_result (by omega)
      · exact .value x rounded (.inr (by omega))

/-- The check changes nothing. -/
theorem check_digits {x y : Decimal} (h : check x = .ok y) : y = x := by
  unfold check at h
  split at h
  · exact (Except.ok.inj h).symm
  · split at h
    · cases h
    · split at h
      · cases h
      · exact (Except.ok.inj h).symm

/-- The operations answer with no more digits than the precision has. -/
theorem digits_le_of_round {x y : Decimal} (digit : 0 < p.digits) (h : p.round x = .ok y) :
    y.digits ≤ p.digits := by
  rw [check_digits h]
  exact Decimal.digits_roundTo_le x digit

theorem roundParts_answers {c e : ℤ} (digit : 0 < p.digits) :
    Answers p.digits (c * 10 ^ e) (p.roundParts c e) :=
  check_answers (Decimal.value_ofPartsRounded digit)

/-- To round and to check is to answer; so do the operations, each for its own exact result. -/
theorem round_answers (x : Decimal) (digit : 0 < p.digits) :
    Answers p.digits x.value (p.round x) :=
  check_answers (Decimal.value_roundTo x digit)

/-- An operand is rounded to the precision. -/
theorem value_lift (x : Decimal) (digit : 0 < p.digits) :
    (p.lift x).value = nearest p.digits x.value := Decimal.value_roundTo x digit

theorem widened_pos (p : Precision) : 0 < p.widened.digits := Nat.succ_pos _

/-! ## The four operations -/

theorem add_answers (a b : Decimal) (digit : 0 < p.digits) :
    Answers p.digits ((p.lift a).value + (p.lift b).value) (p.add a b) := by
  rw [← Decimal.value_add]
  exact round_answers _ digit

theorem subtract_answers (a b : Decimal) (digit : 0 < p.digits) :
    Answers p.digits ((p.lift a).value - (p.lift b).value) (p.subtract a b) := by
  rw [← Decimal.value_sub]
  exact round_answers _ digit

theorem multiply_answers (a b : Decimal) (digit : 0 < p.digits) :
    Answers p.digits ((p.lift a).value * (p.lift b).value) (p.multiply a b) := by
  rw [← Decimal.value_mul]
  exact round_answers _ digit

theorem fusedMultiplyAdd_answers (a b c : Decimal) (digit : 0 < p.digits) :
    Answers p.digits (a.value * b.value + (p.lift c).value) (p.fusedMultiplyAdd a b c) := by
  rw [← Decimal.value_mul, ← Decimal.value_add]
  exact round_answers _ digit

/-- A sum that is first rounded to the digits of its longer operand is the same after a product of no
more digits than the precision. -/
theorem fusedMultiplyAdd_of_digits_le {a b : Decimal} (c : Decimal) (digit : 0 < p.digits)
    (few : (a * b).digits ≤ p.digits) :
    p.fusedMultiplyAdd a b c =
      p.round ((a * b + p.lift c).roundTo (max (a * b).digits p.digits)) := by
  have kept := Decimal.digits_roundTo_le (a * b + c.roundTo p.digits) digit
  rw [max_eq_right few]
  unfold fusedMultiplyAdd round lift
  rw [Decimal.roundTo_eq_self kept]

/-- A longer product is rounded twice, here from a digit under a half to a half and then up. -/
example : working.fusedMultiplyAdd 5 (ofParts (2 * 10 ^ 135 + 1) 0) (ofParts (-1) (-300)) ≠
    working.round ((5 * ofParts (2 * 10 ^ 135 + 1) 0 + ofParts (-1) (-300)).roundTo 137) := by
  decide +kernel

/-- The shift of a quotient leaves more digits before the point than are kept. -/
theorem quotient_long {a b : Decimal} (few : a.digits ≤ p.digits) (nonzero : a.coefficient ≠ 0) :
    10 ^ p.digits * b.coefficient.natAbs ≤
      (a.coefficient * tenPow (p.digits + b.digits + 1 - a.digits)).natAbs := by
  have front := Decimal.pow_digits_le nonzero
  have back : b.coefficient.natAbs < 10 ^ b.digits :=
    (Decimal.digits_le_iff (digitCount_pos _)).1 (Nat.le_refl _)
  have some : 0 < a.digits := digitCount_pos _
  rw [Int.natAbs_mul, Int.natAbs_natCast, tenPow_eq]
  calc 10 ^ p.digits * b.coefficient.natAbs
      ≤ 10 ^ p.digits * 10 ^ b.digits := Nat.mul_le_mul_left _ back.le
    _ = 10 ^ (a.digits - 1) * 10 ^ (p.digits + b.digits + 1 - a.digits) := by
      rw [← Nat.pow_add, ← Nat.pow_add]
      congr 1
      omega
    _ ≤ a.coefficient.natAbs * 10 ^ (p.digits + b.digits + 1 - a.digits) :=
      Nat.mul_le_mul_right _ front

/-- The quotient that is cut off rounds as the quotient itself. -/
theorem nearest_quotientParts {a b : Decimal} (few : a.digits ≤ p.digits)
    (nonzero : b.coefficient ≠ 0) :
    nearest p.digits ((p.quotientParts a b).1 * 10 ^ (p.quotientParts a b).2) =
      nearest p.digits (a.value / b.value) := by
  by_cases vanishes : a.coefficient = 0
  · simp [quotientParts, Decimal.value, vanishes]
  · have unit := ten_zpow_pos
    have cast : (b.coefficient : ℚ) ≠ 0 := by exact_mod_cast nonzero
    have quotient : a.value / b.value =
        (((a.coefficient * tenPow (p.digits + b.digits + 1 - a.digits) : ℤ) : ℚ) / b.coefficient)
          * 10 ^ (a.exponent - b.exponent - (p.digits + b.digits + 1 - a.digits : ℕ)) := by
      rw [Decimal.value, Decimal.value, zpow_sub₀ (by norm_num), zpow_sub₀ (by norm_num),
        zpow_natCast, tenPow_eq]
      have := (unit b.exponent).ne'
      push_cast
      field_simp
    rw [quotient, nearest_mul_zpow, nearest_mul_zpow]
    congr 1
    exact nearest_tdiv (quotient_long few vanishes) nonzero

/-- The quotient is that of the rounded operands. -/
theorem divide_answers {a b : Decimal} (digit : 0 < p.digits) (nonzero : b.value ≠ 0) :
    Answers p.digits ((p.lift a).value / (p.lift b).value) (p.divide a b) := by
  unfold divide
  rw [if_neg (mt Decimal.isZero_iff_value.1 nonzero)]
  have lifted : (p.lift b).coefficient ≠ 0 := by
    rw [← Decimal.value_eq_zero_iff.ne, value_lift b digit]
    exact mt (nearest_eq_zero_iff digit).1 nonzero
  exact check_answers ((Decimal.value_ofPartsRounded digit).trans
    (nearest_quotientParts (Decimal.digits_roundTo_le a digit) lifted))

/-- Zero does not divide, and the condition tells whether it is divided. -/
theorem divide_zero {a b : Decimal} (vanishes : b.value = 0) :
    p.divide a b = .error (zeroDivisor a) := by
  unfold divide
  rw [if_pos (Decimal.isZero_iff_value.2 vanishes)]

end Calculator.Precision
