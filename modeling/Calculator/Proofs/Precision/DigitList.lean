import Mathlib.Data.Nat.Digits.Lemmas
import Calculator.Precision.Digitwise
import Calculator.Proofs.Decimal.Integral

/-!
# Integers as rows of digits

An operand is an integer of at most as many digits as the precision has, or it is refused. The digits
of a number from the last to the first are those of Mathlib, except that zero has a digit, too. Cutting
a row off behind a place leaves the remainder of a division by a power of ten, and what is cut off is
the quotient.
-/

namespace Calculator

variable {n k d : ℕ} {ds : List ℕ}

/-! ## Operands -/

namespace Precision

variable {p : Precision} {x : Decimal} {m : ℤ}

/-- An integer with few digits is taken as it is. -/
theorem integerOf_eq (whole : x.value = m) (fits : x.adjusted < p.digits) :
    p.integerOf x = .ok m := by
  have integral := Decimal.exponent_nonneg_iff.2 ⟨m, whole⟩
  unfold integerOf
  split
  · rename_i vanishes
    rw [Decimal.isZero_iff_value, whole] at vanishes
    rw [Int.cast_eq_zero.1 vanishes]
  · rw [if_neg (not_le.2 fits), if_neg (not_lt.2 integral), tenPow_eq]
    exact_mod_cast congrArg Except.ok (Decimal.coefficient_mul_pow whole)

/-- It is enough to know the value of the operand and that it has few digits. -/
theorem integerOf_of_value (whole : x.value = m) (few : |m| < 10 ^ p.digits) :
    p.integerOf x = .ok m := by
  rcases eq_or_ne m 0 with rfl | nonzero
  · unfold integerOf
    rw [if_pos (Decimal.isZero_iff_value.2 (by rw [whole, Int.cast_zero]))]
  · exact integerOf_eq whole ((Decimal.adjusted_lt_natCast_iff whole nonzero).2 few)

/-- Everything else is refused. -/
theorem integerOf_refused (other : ¬∃ m : ℤ, x.value = m ∧ |m| < 10 ^ p.digits) :
    p.integerOf x = .error .invalidOperation := by
  unfold integerOf
  split
  · rename_i vanishes
    rw [Decimal.isZero_iff_value] at vanishes
    exact absurd ⟨0, by rw [vanishes, Int.cast_zero], by simp⟩ other
  · rename_i nonzero
    split
    · rfl
    · rename_i low
      split
      · rfl
      · rename_i whole
        obtain ⟨m, integral⟩ := Decimal.exponent_nonneg_iff.1 (not_lt.1 whole)
        rw [Decimal.isZero_iff_value, integral, Int.cast_eq_zero] at nonzero
        exact absurd ⟨m, integral, (Decimal.adjusted_lt_natCast_iff integral nonzero).1 (not_le.1 low)⟩ other

end Precision

/-! ## Digits -/

/-- The number of a list of digits is Mathlib's, the last digit first. -/
theorem ofDigitList_eq (ds : List ℕ) : ofDigitList ds = Nat.ofDigits 10 ds := by
  induction ds with
  | nil => rfl
  | cons d ds ih => rw [Nat.ofDigits_cons, ← ih]; rfl

/-- The bits of a number are a limit to its digits. -/
theorem digitsUpTo_eq {limit : ℕ} (enough : n.log2 ≤ limit) (pos : n ≠ 0) :
    digitsUpTo limit n = Nat.digits 10 n := by
  induction limit generalizing n with
  | zero =>
    have small : n < 2 ^ 1 := (Nat.log2_lt pos).1 (by omega)
    rw [digitsUpTo, Nat.digits_of_lt 10 n pos (by omega)]
  | succ limit ih =>
    rw [digitsUpTo]
    split
    · rename_i single
      rw [Nat.digits_of_lt 10 n pos single]
    · have shorter := log2_div_ten (n := n) (by omega)
      rw [ih (by omega) (by omega), ← Nat.digits_def' (by decide) (by omega)]

/-- But for zero, the list of a number is Mathlib's. -/
theorem digitList_eq (pos : n ≠ 0) : digitList n = Nat.digits 10 n := digitsUpTo_eq le_rfl pos

@[simp] theorem digitList_zero : digitList 0 = [0] := rfl

/-- The list of digits stands for the number. -/
@[simp] theorem ofDigitList_digitList (n : ℕ) : ofDigitList (digitList n) = n := by
  rcases eq_or_ne n 0 with rfl | pos
  · rfl
  · rw [digitList_eq pos, ofDigitList_eq, Nat.ofDigits_digits]

theorem lt_ten_of_mem_digitList (mem : d ∈ digitList n) : d < 10 := by
  rcases eq_or_ne n 0 with rfl | pos
  · rw [digitList_zero, List.mem_singleton] at mem
    omega
  · rw [digitList_eq pos] at mem
    exact Nat.digits_lt_base (by decide) mem

/-- A number has as many digits in its list as it is counted to have. -/
theorem length_digitList (n : ℕ) : (digitList n).length = digitCount n := by
  rcases eq_or_ne n 0 with rfl | pos
  · rfl
  · rw [digitList_eq pos, Nat.length_digits 10 n (by decide) pos, digitCount_eq]

/-! ## Cutting a row off -/

/-- The last digits are a remainder. -/
theorem ofDigitList_take_digitList (n k : ℕ) :
    ofDigitList ((digitList n).take k) = n % 10 ^ k := by
  have cut := Nat.ofDigits_mod_pow_eq_ofDigits_take k (by decide) (digitList n)
    fun d mem => lt_ten_of_mem_digitList mem
  rwa [← ofDigitList_eq, ← ofDigitList_eq, ofDigitList_digitList, eq_comm] at cut

/-- The first digits are a quotient. -/
theorem ofDigitList_drop_digitList (n k : ℕ) :
    ofDigitList ((digitList n).drop k) = n / 10 ^ k := by
  have cut := Nat.ofDigits_div_pow_eq_ofDigits_drop k (by decide) (digitList n)
    fun d mem => lt_ten_of_mem_digitList mem
  rwa [← ofDigitList_eq, ← ofDigitList_eq, ofDigitList_digitList, eq_comm] at cut

end Calculator
