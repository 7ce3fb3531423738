import Mathlib.Algebra.Group.Nat.Defs
import Mathlib.Data.Nat.Log
import Calculator.Decimal.Digits

/-!
# The number of decimal digits

`digitCount` is the logarithm to base ten plus one: the power of ten that it divides by
in a step never exceeds the number.
-/

namespace Calculator

theorem tenPow_eq (n : Nat) : tenPow n = 10 ^ n := rfl

/-- Three decimal digits for ten binary ones. -/
theorem ten_pow_le_two_pow {block bits : Nat} (h : 10 * block ≤ 3 * bits) :
    10 ^ block ≤ 2 ^ bits := by
  have tenth : (10 ^ block) ^ 10 ≤ (2 ^ bits) ^ 10 := by
    calc (10 ^ block) ^ 10 = 10 ^ (10 * block) := by rw [← Nat.pow_mul, Nat.mul_comm]
      _ ≤ 10 ^ (3 * bits) := Nat.pow_le_pow_right (by decide) h
      _ = (10 ^ 3) ^ bits := Nat.pow_mul ..
      _ ≤ (2 ^ 10) ^ bits := Nat.pow_le_pow_left (by decide) bits
      _ = (2 ^ bits) ^ 10 := by rw [← Nat.pow_mul, ← Nat.pow_mul, Nat.mul_comm]
  exact (Nat.pow_le_pow_iff_left (by decide)).1 tenth

/-- A larger number does not have fewer bits. -/
theorem log2_mono {m n : Nat} (h : m ≤ n) : m.log2 ≤ n.log2 := by
  simp only [Nat.log2_eq_log_two]
  exact Nat.log_mono_right h

/-- The bits of a number are fuel enough to count its digits. -/
theorem countDigits_eq {fuel n : Nat} (enough : n.log2 ≤ fuel) :
    countDigits fuel n = Nat.log 10 n + 1 := by
  induction fuel generalizing n with
  | zero =>
    have small : n < 2 := by
      by_cases zero : n = 0
      · omega
      · simpa [Nat.le_zero.1 enough] using (Nat.log2_lt zero).1 (Nat.lt_succ_of_le enough)
    rw [countDigits, Nat.log_of_lt (by omega)]
  | succ fuel ih =>
    rw [countDigits]
    split
    · rw [Nat.log_of_lt (by assumption)]
    · rename_i ten
      -- A block is at least one digit, so the binary length of the quotient is smaller.
      have nonzero : n ≠ 0 := by omega
      have long : 3 ≤ n.log2 := (Nat.le_log2 nonzero).2 (by omega)
      have block_le : 10 ^ max 1 (n.log2 * 3 / 10) ≤ n := by
        rcases Nat.le_total (n.log2 * 3 / 10) 1 with single | several
        · rw [Nat.max_eq_left single]
          omega
        · rw [Nat.max_eq_right several]
          exact (ten_pow_le_two_pow (by omega)).trans (Nat.log2_self_le nonzero)
      have quotient_le : n / 10 ^ max 1 (n.log2 * 3 / 10) ≤ n / 10 :=
        Nat.div_le_div_left (Nat.le_self_pow (by omega) 10) (by decide)
      have shorter : (n / 10 ^ max 1 (n.log2 * 3 / 10)).log2 ≤ fuel := by
        have less := log2_div_ten (n := n) (by omega)
        have mono := log2_mono quotient_le
        omega
      have block_log : max 1 (n.log2 * 3 / 10) ≤ Nat.log 10 n :=
        Nat.le_log_of_pow_le (by decide) block_le
      simp only [tenPow_eq]
      rw [ih shorter, Nat.log_div_base_pow]
      omega

/-- The digits of a number are one more than its logarithm. -/
theorem digitCount_eq (n : Nat) : digitCount n = Nat.log 10 n + 1 :=
  countDigits_eq (Nat.le_refl _)

/-- Zero has one digit too. -/
theorem digitCount_pos (n : Nat) : 0 < digitCount n := by
  rw [digitCount_eq]
  omega

/-- A number has at most `k` digits exactly if it is below `10 ^ k`. -/
theorem digitCount_le_iff {n k : Nat} (pos : 0 < k) : digitCount n ≤ k ↔ n < 10 ^ k := by
  by_cases zero : n = 0
  · have : 0 < 10 ^ k := Nat.pow_pos (by decide)
    simp only [zero, digitCount_eq, Nat.log_zero_right]
    omega
  · rw [digitCount_eq, ← Nat.log_lt_iff_lt_pow (by decide) zero]
    omega

end Calculator
