import Mathlib.Data.Nat.Factorial.Basic
import Calculator.Real.Power
import Calculator.Proofs.Real.Drift
import Calculator.Proofs.Real.NativeInteger

/-!
# Factorials

Ten factors below `2 ^ 32` have a product of fewer than 136 digits, so a group of them is exact, and
each group costs one rounding. The factorial that the product stands for is therefore known up to as
many roundings as there are groups. Where the product leaves the exponent bounds the factorial is as
large as the bound up to these roundings; and from `300000!` on a factorial is so large that their
number does not matter.
-/

namespace Calculator

open Precision (working)
open Decimal (working_digits_pos)
open scoped Nat

/-! ## Sizes -/

/-- A power of a smaller number is below a factorial by as many factors. -/
theorem two_mul_pow_le_factorial {a : ℕ} (some : 2 ≤ a) (m : ℕ) : 2 * a ^ m ≤ (a + m)! :=
  calc 2 * a ^ m ≤ a ! * (a + 1) ^ m :=
        Nat.mul_le_mul (some.trans (Nat.self_le_factorial a)) (Nat.pow_le_pow_left a.le_succ m)
    _ ≤ (a + m)! := Nat.factorial_mul_pow_le_factorial

/-- Past three hundred thousand factorials are beyond the bound, twice over. -/
theorem two_mul_bound_le_factorial {n k : ℕ} (digits : k = 5 * 200000) (large : 300000 ≤ n) :
    2 * 10 ^ k ≤ n ! := by
  have split : 10 ^ 5 + (n - 10 ^ 5) = n := by omega
  calc 2 * 10 ^ k = 2 * (10 ^ 5) ^ 200000 := by rw [digits, pow_mul]
    _ ≤ 2 * (10 ^ 5) ^ (n - 10 ^ 5) :=
        Nat.mul_le_mul_left 2 (Nat.pow_le_pow_right (by decide) (by omega))
    _ ≤ (10 ^ 5 + (n - 10 ^ 5))! := two_mul_pow_le_factorial (by decide) _
    _ = n ! := by rw [split]

/-! ## Factorials next to a bound -/

section

variable {bound part off size : ℚ} (positive : 0 < bound)

include positive

/-- What is below a bound by a part of it does not reach it with an error of half that part. -/
theorem not_reached (low : 0 < part) (below : size < bound * (1 - part)) (some : 0 ≤ off)
    (reached : bound ≤ (1 + off) * size) : ¬(off ≤ part / 2 ∨ 2 * bound ≤ size) := by
  rintro (near | far)
  · have product : (1 + off) * (1 - part) ≤ 1 := by nlinarith
    have less : (1 + off) * size < (1 + off) * (bound * (1 - part)) :=
      mul_lt_mul_of_pos_left below (by linarith)
    nlinarith
  · nlinarith

/-- What is above a bound by a part of it is not brought below it by an error of half that part, and
what is twice as large by no error of a quarter. -/
theorem not_kept (low : 0 < part) (above : bound * (1 + part) < size)
    (some : off ≤ 1 / 4) (kept : (1 - off) * size < bound) :
    ¬(off ≤ part / 2 ∨ 2 * bound ≤ size) := by
  rintro (near | far)
  · have product : 1 ≤ (1 - off) * (1 + part) := by nlinarith
    have more : (1 - off) * (bound * (1 + part)) < (1 - off) * size :=
      mul_lt_mul_of_pos_left above (by linarith)
    nlinarith
  · nlinarith

end

namespace Decimal

variable {x result : Decimal} {n m k limit : ℕ}

/-! ## A group of factors -/

theorem prod_range' (m c : ℕ) : (List.range' (m + 1) c).prod = (m + 1).ascFactorial c := by
  induction c with
  | zero => rfl
  | succ c ih =>
    rw [List.range'_1_concat, List.prod_append, ih, List.prod_singleton, Nat.ascFactorial_succ,
      mul_comm]

/-- A group is a rising factorial. -/
theorem groupProduct_eq (m c : ℕ) : groupProduct (m + 1) (m + c) = (m + 1).ascFactorial c := by
  have count : m + c + 1 - (m + 1) = c := by omega
  rw [groupProduct, count, ← List.prod_eq_foldl, prod_range']

/-- Ten factors of 32 bits need no rounding. -/
theorem isWorking_group {c : ℕ} (few : c ≤ factorialGroup) (short : m + c < 2 ^ 32) :
    (ofInt ((m + 1).ascFactorial c)).IsWorking := by
  refine isWorking_ofInt ?_
  rw [Int.natAbs_natCast]
  calc (m + 1).ascFactorial c ≤ (m + c) ^ c := Nat.ascFactorial_le_pow_add m c
    _ ≤ (2 ^ 32) ^ c := Nat.pow_le_pow_left short.le c
    _ ≤ (2 ^ 32) ^ 10 := Nat.pow_le_pow_right (by decide) few
    _ < 10 ^ 136 := by decide

/-- Multiplication by a number that is not below one fails only where the product is too large. -/
theorem mul_of_one_le (hx : x.IsWorking) (hy : y.IsWorking) (grows : 1 ≤ |y.value|) :
    (∃ z, x.mul y = .ok z ∧ z.IsWorking ∧ Drift working.digits 1 z.value (x.value * y.value)) ∨
    x.mul y = .error .overflow ∧
      ∃ q, Drift working.digits 1 q (x.value * y.value) ∧ 10 ^ 1000000 ≤ |q| := by
  have answer := mul_answers hx hy
  cases product : working.multiply x y with
  | ok z =>
    have value : x.mul y = .ok z := by rw [mul, product]; rfl
    exact .inl ⟨z, value, isWorking_of_mul value, drift_of_mul hx hy value⟩
  | error c =>
    rw [product] at answer
    cases answer with
    | overflow nonzero large =>
      exact .inr ⟨by rw [mul, product]; rfl, _, .nearest working_digits_pos _,
        Precision.le_abs_nearest_of_large working_digits_pos nonzero large (by decide)⟩
    | underflow =>
      have failure : x.mul y = .error .underflow := by rw [mul, product]; rfl
      rcases mul_eq_error hx hy failure with ⟨other, -⟩ | ⟨-, shrinks⟩
      · cases other
      · exact absurd grows (not_le.2 shrinks)

/-! ## The groups one after the other -/

/-- The answer is the factorial of `n` up to `k` roundings, unless a factorial on the way to it
reaches the exponent bound with so many of them. -/
inductive Reaches (n k : ℕ) : Except ArithmeticError Decimal → Prop
  | value (y : Decimal) (hy : y.IsWorking) (drift : Drift working.digits k y.value n !) :
      Reaches n k (.ok y)
  | overflow (m : ℕ) (le : m ≤ n) (q : ℚ) (drift : Drift working.digits k q m !)
      (large : 10 ^ 1000000 ≤ |q|) : Reaches n k (.error .overflow)

/-- A group of `c` factors is multiplied, and the groups that follow are enough for the rest. -/
theorem exists_group (result : Decimal) (more : m < n) (enough : n ≤ m + factorialGroup * (limit + 1)) :
    ∃ c ≤ factorialGroup, m + c ≤ n ∧ n ≤ m + c + factorialGroup * limit ∧
      multiplyGroups n (limit + 1) (m + 1) result =
        result.mul (ofInt ((m + 1).ascFactorial c)) >>= multiplyGroups n limit (m + c + 1) := by
  obtain ⟨c, last, few, le, rest⟩ : ∃ c, Nat.min (m + 1 + factorialGroup - 1) n = m + c ∧
      c ≤ factorialGroup ∧ m + c ≤ n ∧ n ≤ m + c + factorialGroup * limit := by
    have ten : factorialGroup = 10 := rfl
    rw [ten] at enough ⊢
    by_cases full : m + 1 + 10 - 1 ≤ n
    · exact ⟨10, (if_pos full).trans (by omega), le_rfl, by omega, by omega⟩
    · exact ⟨n - m, (if_neg full).trans (by omega), by omega, by omega, by omega⟩
  refine ⟨c, few, le, rest, ?_⟩
  rw [multiplyGroups, if_neg (by omega)]
  dsimp only
  rw [last, groupProduct_eq]

/-- The groups that are left multiply the factorial so far up to the whole one, or overflow on the
way. -/
theorem multiplyGroups_reaches (short : n < 2 ^ 32) (hr : result.IsWorking)
    (drift : Drift working.digits k result.value m !) (le : m ≤ n)
    (enough : n ≤ m + factorialGroup * limit) :
    Reaches n (k + limit) (multiplyGroups n limit (m + 1) result) := by
  have digit := working_digits_pos
  -- `result` stands for `m !` up to `k` roundings; a group takes `m` further and adds a rounding
  induction limit generalizing m k result with
  | zero =>
    obtain rfl : m = n := by omega
    exact .value result hr drift
  | succ limit ih =>
    rcases le.eq_or_lt with rfl | more
    · rw [multiplyGroups, if_pos m.lt_succ_self]
      exact .value result hr (drift.trans digit (.refl digit _))
    · obtain ⟨c, few, next, rest, step⟩ := exists_group result more enough
      have group := isWorking_group few (next.trans_lt short)
      have product : (m ! : ℚ) * (ofInt ((m + 1).ascFactorial c)).value = (m + c)! := by
        rw [value_ofInt, ← Nat.factorial_mul_ascFactorial]
        push_cast
        rfl
      have grows : 1 ≤ |(ofInt ((m + 1).ascFactorial c)).value| := by
        rw [value_ofInt]
        exact_mod_cast Nat.ascFactorial_pos m c
      have known := drift.mul digit (.refl digit (n := 0) (ofInt ((m + 1).ascFactorial c)).value)
      rw [product] at known
      rw [step]
      rcases mul_of_one_le hr group grows with ⟨z, value, hz, rounded⟩ | ⟨failure, q, rounded, large⟩
      · rw [value, show k + (limit + 1) = 1 + (k + 0) + limit by omega]
        exact ih hz (rounded.trans digit known) next rest
      · rw [failure]
        have drift := (rounded.trans digit known).trans digit (.refl digit (n := limit) _)
        rw [show 1 + (k + 0) + limit = k + (limit + 1) by omega] at drift
        exact .overflow (m + c) next q drift large

/-! ## What the roundings amount to -/

/-- The part of a factorial that the roundings of its groups can change. -/
def groupsError (n : ℕ) : ℚ := 10 ^ (-135 : ℤ) * (n / 10 + 1 : ℕ)

theorem groupsError_nonneg (n : ℕ) : 0 ≤ groupsError n := by unfold groupsError; positivity

/-- The error is that of the roundings, one for each group. -/
theorem groupsError_eq (n : ℕ) :
    2 * (n / 10 + 1 : ℕ) * roundoff working.digits = groupsError n := by
  rw [roundoff_working, groupsError]
  norm_num
  ring

/-- Few groups have a small error. -/
theorem groupsError_le {c : ℕ} (few : n / 10 + 1 ≤ c) : groupsError n ≤ 10 ^ (-135 : ℤ) * c := by
  unfold groupsError
  exact mul_le_mul_of_nonneg_left (by exact_mod_cast few) (by positivity)

/-- The error of thirty-two bits of factors is still less than a quarter. -/
theorem groupsError_le_quarter (short : n < 2 ^ 32) : groupsError n ≤ 1 / 4 :=
  (groupsError_le (c := 2 ^ 32) (by omega)).trans (by norm_num)

/-- The error is small, or the factorial is large. -/
theorem groupsError_small_or_large (n : ℕ) :
    groupsError n ≤ 10 ^ (-130 : ℤ) / 2 ∨ 2 * 10 ^ 1000000 ≤ (n ! : ℚ) := by
  rcases lt_or_ge n 300000 with low | high
  · exact .inl ((groupsError_le (c := 30000) (by omega)).trans (by norm_num))
  · have large := two_mul_bound_le_factorial (k := 1000000) (by decide) high
    generalize 1000000 = k at *
    exact .inr (by exact_mod_cast large)

/-- As many roundings as groups leave a part of the factorial at most. -/
theorem abs_sub_factorial_le (short : n < 2 ^ 32) {q : ℚ}
    (drift : Drift working.digits (n / 10 + 1) q m !) : |q - m !| ≤ groupsError n * m ! := by
  have few : 2 * (n / 10 + 1 : ℕ) * roundoff working.digits ≤ 1 := by
    rw [groupsError_eq]
    exact (groupsError_le_quarter short).trans (by norm_num)
  have off := drift.abs_sub_le working_digits_pos few
  rwa [groupsError_eq, Nat.abs_cast] at off

section

variable {r : Except ArithmeticError Decimal} (short : n < 2 ^ 32) (h : Reaches n (n / 10 + 1) r)

include short h

/-- What is reached is close to the factorial, or it is an overflow. -/
theorem Reaches.accurate :
    (∃ y, r = .ok y ∧ |y.value - n !| ≤ groupsError n * n !) ∨ r = .error .overflow := by
  cases h with
  | value y _ drift => exact .inl ⟨y, rfl, abs_sub_factorial_le short drift⟩
  | overflow => exact .inr rfl

/-- Clearly below the bound there is a value. -/
theorem Reaches.answered (below : (n ! : ℚ) < 10 ^ 1000000 * (1 - 10 ^ (-130 : ℤ))) :
    ∃ y, r = .ok y := by
  cases h with
  | value y => exact ⟨y, rfl⟩
  | overflow m le q drift large =>
    have positive : (0 : ℚ) < 10 ^ 1000000 := pow_pos (by norm_num) _
    have sizes := groupsError_small_or_large n
    have off := abs_le.1 (abs_sub_factorial_le short drift)
    have some := groupsError_nonneg n
    have grown : (m ! : ℚ) ≤ n ! := by exact_mod_cast Nat.factorial_le le
    have whole : (0 : ℚ) ≤ m ! := Nat.cast_nonneg _
    have quarter := mul_le_mul_of_nonneg_right (groupsError_le_quarter short) whole
    generalize (10 : ℚ) ^ 1000000 = bound at *
    have rounded : 0 ≤ q := by linarith [off.1]
    have reached : bound ≤ (1 + groupsError n) * n ! :=
      calc bound ≤ q := by rwa [abs_of_nonneg rounded] at large
        _ ≤ (1 + groupsError n) * m ! := by linarith [off.2]
        _ ≤ (1 + groupsError n) * n ! := mul_le_mul_of_nonneg_left grown (by linarith)
    exact absurd sizes (not_reached positive (by positivity) below some reached)

/-- Clearly above the bound there is none. -/
theorem Reaches.refused (above : 10 ^ 1000000 * (1 + 10 ^ (-130 : ℤ)) < (n ! : ℚ)) :
    r = .error .overflow := by
  cases h with
  | value y hy drift =>
    have positive : (0 : ℚ) < 10 ^ 1000000 := pow_pos (by norm_num) _
    have sizes := groupsError_small_or_large n
    have off := abs_le.1 (abs_sub_factorial_le short drift)
    have within := hy.inRange.abs_lt (k := 1000000) (by decide)
    generalize (10 : ℚ) ^ 1000000 = bound at *
    have kept : (1 - groupsError n) * n ! < bound :=
      calc (1 - groupsError n) * n ! ≤ y.value := by linarith [off.1]
        _ < bound := (le_abs_self _).trans_lt within
    exact absurd sizes
      (not_kept positive (by positivity) above (groupsError_le_quarter short) kept)
  | overflow => rfl

end

/-! ## The factorial of a working value -/

/-- A positive integer goes to the groups if it has thirty-two bits. -/
theorem IsWorking.factorial_of_pos (hx : x.IsWorking) {i : ℤ} (whole : x.value = i) (pos : 0 < i) :
    x.factorial = (do
      let n ← (liftM x.toUInt : Except MathError ℕ)
      liftM (multiplyGroups n (n / factorialGroup + 1) 1 1)) := by
  obtain ⟨f, fraction, none⟩ := hx.exists_fractional
  have some : ¬x.isZero = true := by
    rw [isZero_iff_value, whole]
    exact_mod_cast pos.ne'
  have positive : ¬x.isNegative = true := by
    rw [isNegative_iff_value, whole, not_lt]
    exact_mod_cast pos.le
  have guard : ¬(x.isNegative || !f.isZero) = true := by
    simp [positive, none.2 ⟨i, whole⟩]
  unfold factorial
  rw [if_neg some, fraction]
  exact if_neg guard

/-- The factorial is computed in groups of ten factors. -/
theorem IsWorking.factorial_eq (hx : x.IsWorking) (whole : x.value = n) (short : n < 2 ^ 32) :
    x.factorial = liftM (multiplyGroups n (n / factorialGroup + 1) 1 1) := by
  have integral : x.value = (n : ℤ) := by rw [whole, Int.cast_natCast]
  rcases Nat.eq_zero_or_pos n with rfl | pos
  · unfold factorial
    exact if_pos (isZero_iff_value.2 (by rw [whole, Nat.cast_zero]))
  · rw [hx.factorial_of_pos integral (by omega), hx.toUInt_eq integral, if_pos (by omega),
      Int.toNat_natCast]
    rfl

/-- An integer of more than thirty-two bits cannot be converted. -/
theorem IsWorking.factorial_too_large (hx : x.IsWorking) {i : ℤ} (whole : x.value = i)
    (large : 2 ^ 32 ≤ i) : x.factorial = .error (.arithmetic .conversionImpossible) := by
  rw [hx.factorial_of_pos whole (by omega), hx.toUInt_eq whole, if_neg (by omega)]
  rfl

/-- Negative numbers and fractions have no factorial. -/
theorem IsWorking.factorial_refused (hx : x.IsWorking)
    (other : x.value < 0 ∨ ¬∃ k : ℤ, x.value = k) :
    x.factorial = .error (.invalidArgument "fact" .factorial) := by
  obtain ⟨f, fraction, none⟩ := hx.exists_fractional
  have some : ¬x.isZero = true := by
    rw [isZero_iff_value]
    rintro vanishes
    rcases other with negative | fractional
    · exact absurd vanishes negative.ne
    · exact fractional ⟨0, by rw [vanishes, Int.cast_zero]⟩
  have guard : (x.isNegative || !f.isZero) = true := by
    rw [Bool.or_eq_true, isNegative_iff_value, Bool.not_eq_true', ← Bool.not_eq_true, none]
    exact other
  unfold factorial
  rw [if_neg some, fraction]
  exact if_pos guard

/-- The groups begin with one, which is the factorial of zero without a rounding. -/
theorem IsWorking.factorial_reaches (hx : x.IsWorking) (whole : x.value = n) (short : n < 2 ^ 32) :
    ∃ r, Reaches n (n / 10 + 1) r ∧ x.factorial = liftM r := by
  have start : Drift working.digits 0 (1 : Decimal).value 0! := by
    rw [value_ofNat]
    exact .refl working_digits_pos _
  have enough : n ≤ 0 + factorialGroup * (n / factorialGroup + 1) := by
    have ten : factorialGroup = 10 := rfl
    rw [ten]
    omega
  have run := multiplyGroups_reaches short (by decide) start n.zero_le enough
  rw [zero_add] at run
  exact ⟨_, run, hx.factorial_eq whole short⟩

/-- The factorial of a working value: how far it is off, on which side of the exponent bound it is
answered, and how other arguments are refused. -/
theorem factorial_by_groups {x : Decimal} (hx : x.IsWorking) :
    (∀ n : ℕ, x.value = n → n < 2 ^ 32 →
      ((∃ y, x.factorial = .ok y ∧
          |y.value - n !| ≤ 10 ^ (-135 : ℤ) * (n / 10 + 1 : ℕ) * n !) ∨
        x.factorial = .error (.arithmetic .overflow)) ∧
      ((n ! : ℚ) < 10 ^ 1000000 * (1 - 10 ^ (-130 : ℤ)) → ∃ y, x.factorial = .ok y) ∧
      (10 ^ 1000000 * (1 + 10 ^ (-130 : ℤ)) < (n ! : ℚ) →
        x.factorial = .error (.arithmetic .overflow))) ∧
    ((x.value < 0 ∨ ¬∃ k : ℤ, x.value = k) →
      x.factorial = .error (.invalidArgument "fact" .factorial)) ∧
    ∀ k : ℤ, x.value = k → 2 ^ 32 ≤ k →
      x.factorial = .error (.arithmetic .conversionImpossible) := by
  refine ⟨?_, hx.factorial_refused, fun k => hx.factorial_too_large⟩
  intro n whole short
  obtain ⟨r, reaches, answer⟩ := hx.factorial_reaches whole short
  rw [answer]
  refine ⟨?_, ?_, ?_⟩
  · rcases reaches.accurate short with ⟨y, rfl, near⟩ | rfl
    · exact .inl ⟨y, rfl, near⟩
    · exact .inr rfl
  · intro below
    obtain ⟨y, rfl⟩ := reaches.answered short below
    exact ⟨y, rfl⟩
  · intro above
    rw [reaches.refused short above]
    rfl

/-- Two whole groups and half a one, and two arguments that are refused. -/
theorem factorial_by_groups_twenty_five :
    (ofInt 25).IsWorking ∧
    (∃ y, (ofInt 25).factorial = .ok y ∧
      |y.value - 25 !| ≤ 10 ^ (-135 : ℤ) * (25 / 10 + 1 : ℕ) * 25 !) ∧
    (ofInt (-25)).factorial = .error (.invalidArgument "fact" .factorial) ∧
    (ofInt (2 ^ 32)).factorial = .error (.arithmetic .conversionImpossible) := by
  have hx : (ofInt 25).IsWorking := by decide
  obtain ⟨near, answered, -⟩ :=
    (factorial_by_groups hx).1 25 (value_ofInt 25) (by decide)
  have below : (25 ! : ℚ) < 10 ^ 1000000 * (1 - 10 ^ (-130 : ℤ)) :=
    calc (25 ! : ℚ) ≤ 2 * 10 ^ 25 := by exact_mod_cast (by decide : 25 ! ≤ 2 * 10 ^ 25)
      _ < 10 ^ 26 * (1 - 10 ^ (-130 : ℤ)) := by norm_num
      _ ≤ 10 ^ 1000000 * (1 - 10 ^ (-130 : ℤ)) :=
        mul_le_mul_of_nonneg_right (pow_le_pow_right₀ (by norm_num) (by decide)) (by norm_num)
  obtain ⟨y, value⟩ := answered below
  refine ⟨hx, near.resolve_right (by simp [value]), ?_, ?_⟩
  · refine (factorial_by_groups (by decide)).2.1 (.inl ?_)
    rw [value_ofInt]
    norm_num
  · exact (factorial_by_groups (by decide)).2.2 (2 ^ 32) (value_ofInt _) le_rfl

end Decimal

end Calculator
