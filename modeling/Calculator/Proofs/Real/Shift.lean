import Calculator.Proofs.Precision.DigitList
import Calculator.Proofs.Precision.Division
import Calculator.Proofs.Real.Integral

/-!
# Shifts of the digits of an integer

To the left a shift multiplies by a power of ten and keeps as many of the last digits as the precision
has; to the right it divides and cuts the fraction off. The sign is kept. The shifted integer is never
rounded, so what can be wrong with it is only that it is too large for the exponent bounds, in a
precision of more than a million digits.
-/

namespace Calculator

open Precision (working)

/-- The integer with its digits shifted to the left by `k` places, or to the right where `k` is
negative, of which the last `d` are kept. -/
def shiftedDigits (d : ℕ) (n k : ℤ) : ℤ :=
  n.sign * (if 0 ≤ k then n.natAbs * 10 ^ k.natAbs % 10 ^ d else n.natAbs / 10 ^ k.natAbs : ℕ)

variable {d : ℕ} {n : ℤ}

/-- A shift to the left that drops no digit. -/
theorem shiftedDigits_natCast {k : ℕ} (few : |n| * 10 ^ k < 10 ^ d) :
    shiftedDigits d n k = n * 10 ^ k := by
  have fits : n.natAbs * 10 ^ k < 10 ^ d := by
    rw [Int.abs_eq_natAbs] at few
    exact_mod_cast few
  rw [shiftedDigits, if_pos (Int.natCast_nonneg k), Int.natAbs_natCast, Nat.mod_eq_of_lt fits]
  push_cast
  rw [← mul_assoc, Int.sign_mul_abs]

theorem shiftedDigits_neg_natCast {k : ℕ} (few : |n| < 10 ^ d) :
    shiftedDigits d n (-k) = n.sign * (n.natAbs / 10 ^ k : ℕ) := by
  rcases Nat.eq_zero_or_pos k with rfl | right
  · have fits : n.natAbs < 10 ^ d := by
      rw [Int.abs_eq_natAbs] at few
      exact_mod_cast few
    simp [shiftedDigits, Nat.mod_eq_of_lt fits]
  · rw [shiftedDigits, if_neg (by omega), Int.natAbs_neg, Int.natAbs_natCast]

/-- A shift to the right takes back a shift to the left. -/
theorem shiftedDigits_mul_pow {k : ℕ} (few : |n| * 10 ^ k < 10 ^ d) :
    shiftedDigits d (n * 10 ^ k) (-k) = n := by
  have power : 0 < 10 ^ k := by positivity
  have magnitude : (n * 10 ^ k).natAbs = n.natAbs * 10 ^ k := by
    rw [Int.natAbs_mul, Int.natAbs_pow]
    rfl
  have sign : (n * 10 ^ k).sign = n.sign := by
    rw [Int.sign_mul, Int.sign_eq_one_of_pos (by positivity : (0 : ℤ) < 10 ^ k), mul_one]
  rw [shiftedDigits_neg_natCast (by rwa [abs_mul, abs_of_pos (by positivity : (0 : ℤ) < 10 ^ k)]),
    magnitude, sign, Nat.mul_div_cancel _ power, ← Int.abs_eq_natAbs, Int.sign_mul_abs]

namespace Precision

variable {p : Precision} {x places : Decimal} {n k : ℤ}

/-- The digits that are left of a row are those of the shifted integer. -/
theorem ofParts_shiftDigits (few : k.natAbs ≤ p.digits) :
    Decimal.ofParts (n.sign * ofDigitList (p.shiftDigits k (digitList n.natAbs)).1)
        (p.shiftDigits k (digitList n.natAbs)).2 = .ofInt (shiftedDigits p.digits n k) := by
  apply Decimal.value_injective
  rw [Decimal.value_ofParts, Decimal.value_ofInt, shiftDigits, shiftedDigits]
  split
  · rename_i left
    obtain ⟨places, rfl⟩ := Int.eq_ofNat_of_zero_le left
    rw [Int.natAbs_natCast] at few ⊢
    have cut : n.natAbs * 10 ^ places % 10 ^ p.digits =
        n.natAbs % 10 ^ (p.digits - places) * 10 ^ places := by
      rw [← Nat.mul_mod_mul_right, ← pow_add, Nat.sub_add_cancel few]
    dsimp only
    rw [ofDigitList_take_digitList, cut, zpow_natCast]
    push_cast
    ring
  · dsimp only
    rw [ofDigitList_drop_digitList, zpow_zero, mul_one]

/-- No digit is added, except for the zeros. -/
theorem natAbs_shiftDigits_lt (few : |n| < 10 ^ p.digits) :
    (n.sign * ofDigitList (p.shiftDigits k (digitList n.natAbs)).1).natAbs < 10 ^ p.digits := by
  have short : n.natAbs < 10 ^ p.digits := by
    rw [Int.abs_eq_natAbs] at few
    exact_mod_cast few
  have sign : n.sign.natAbs ≤ 1 := by
    rw [Int.natAbs_sign]
    split <;> decide
  have row : ofDigitList (p.shiftDigits k (digitList n.natAbs)).1 ≤ n.natAbs := by
    unfold shiftDigits
    split
    · rw [ofDigitList_take_digitList]
      exact Nat.mod_le _ _
    · rw [ofDigitList_drop_digitList]
      exact Nat.div_le_self _ _
  rw [Int.natAbs_mul, Int.natAbs_natCast]
  calc n.sign.natAbs * ofDigitList (p.shiftDigits k (digitList n.natAbs)).1
      ≤ 1 * n.natAbs := Nat.mul_le_mul sign row
    _ < 10 ^ p.digits := by rwa [one_mul]

theorem shift_eq (digit : 0 < p.digits) (hx : x.value = n) (few : |n| < 10 ^ p.digits)
    (hk : places.value = k) (near : |k| ≤ p.digits) :
    p.shift x places =
      if |shiftedDigits p.digits n k| < 10 ^ 1000000 then .ok (.ofInt (shiftedDigits p.digits n k))
      else .error .overflow := by
  have amount : k.natAbs ≤ p.digits := by
    rw [Int.abs_eq_natAbs] at near
    exact_mod_cast near
  have fewPlaces : |k| < 10 ^ p.digits :=
    near.trans_lt (by exact_mod_cast Nat.lt_pow_self (by decide))
  have answer : p.shift x places = check (.ofInt (shiftedDigits p.digits n k)) := by
    unfold shift
    rw [integerOf_of_value hx few, integerOf_of_value hk fewPlaces, ← ofParts_shiftDigits amount,
      ← roundParts_of_few digit (natAbs_shiftDigits_lt few)]
    exact if_neg (not_lt.2 amount)
  rw [answer, check_ofInt_eq]

theorem shift_refused
    (other : (¬∃ n : ℤ, x.value = n ∧ |n| < 10 ^ p.digits) ∨
      ¬∃ k : ℤ, places.value = k ∧ |k| ≤ p.digits) :
    p.shift x places = .error .invalidOperation := by
  unfold shift
  by_cases first : ∃ n : ℤ, x.value = n ∧ |n| < 10 ^ p.digits
  · obtain ⟨n, hx, few⟩ := first
    have far := other.resolve_left (not_not.2 ⟨n, hx, few⟩)
    rw [integerOf_of_value hx few]
    by_cases second : ∃ k : ℤ, places.value = k ∧ |k| < 10 ^ p.digits
    · obtain ⟨k, hk, short⟩ := second
      have long : p.digits < k.natAbs := by
        by_contra near
        exact far ⟨k, hk, by rw [Int.abs_eq_natAbs]; exact_mod_cast not_lt.1 near⟩
      rw [integerOf_of_value hk short]
      exact if_pos long
    · rw [integerOf_refused second]
      rfl
  · rw [integerOf_refused first]
    rfl

end Precision

namespace Decimal

variable {x places : Decimal} {n k : ℤ}

/-- A shift whose result has at most 136 digits. -/
theorem shl_eq (hx : x.value = n) (few : |n| < 10 ^ 136) (hk : places.value = k) (near : |k| ≤ 136)
    (short : |shiftedDigits 136 n k| < 10 ^ 136) :
    x.shl places = .ok (ofInt (shiftedDigits 136 n k)) := by
  have fits : |shiftedDigits 136 n k| < 10 ^ 1000000 :=
    short.trans_le (pow_le_pow_right₀ (by decide) (by decide))
  unfold shl onDigits
  rw [(isWorking_of_value hx few).requireIntegral_eq hx,
    (isWorking_of_value hk (near.trans_lt (by norm_num))).requireIntegral_eq hk]
  have answer : working.shift x places = .ok (ofInt (shiftedDigits 136 n k)) :=
    (Precision.shift_eq working_digits_pos hx few hk near).trans (if_pos fits)
  exact congrArg reported answer

/-- Shifting to the left and back restores an integer that has room for the zeros. -/
theorem shl_bind_shr {k : ℕ} (hx : x.value = n) (hk : places.value = k) (near : k ≤ 136)
    (room : |n| * 10 ^ k < 10 ^ 136) : (x.shl places >>= fun y => y.shr places) = .ok x := by
  have self : x = ofInt n := value_injective (by rw [hx, value_ofInt])
  have power : (0 : ℤ) < 10 ^ k := by positivity
  have moved : |n * 10 ^ k| < 10 ^ 136 := by rwa [abs_mul, abs_of_pos power]
  have few : |n| < 10 ^ 136 := (le_mul_of_one_le_right (abs_nonneg n) power).trans_lt room
  have left := shl_eq hx few hk (by rw [Nat.abs_cast]; exact_mod_cast near)
    (by rwa [shiftedDigits_natCast room])
  rw [shiftedDigits_natCast room] at left
  have opposite : (-places).value = (-k : ℤ) := by
    rw [value_neg, hk]
    push_cast
    rfl
  have back := shl_eq (value_ofInt (n * 10 ^ k)) moved opposite
    (by rw [abs_neg, Nat.abs_cast]; exact_mod_cast near)
    (by rwa [shiftedDigits_mul_pow room])
  rw [shiftedDigits_mul_pow room, ← self] at back
  rw [left]
  exact back

end Decimal

/-! ## Which shifts are answered, and with what -/

/-- A shift is answered with the shifted integer, unless this is out of bounds, and refused where an
operand has no place in it. To the left and back, it restores what has room for the zeros. -/
theorem Precision.shift_arithmetic {p : Precision} (digit : 0 < p.digits) :
    (∀ (x places : Decimal) (n k : ℤ), x.value = n → |n| < 10 ^ p.digits →
      places.value = k → |k| ≤ p.digits →
      p.shift x places =
        if |shiftedDigits p.digits n k| < 10 ^ 1000000 then
          .ok (.ofInt (shiftedDigits p.digits n k))
        else .error .overflow) ∧
    (∀ x places : Decimal,
      ((¬∃ n : ℤ, x.value = n ∧ |n| < 10 ^ p.digits) ∨
        ¬∃ k : ℤ, places.value = k ∧ |k| ≤ p.digits) →
      p.shift x places = .error .invalidOperation) ∧
    ∀ (x places : Decimal) (n : ℤ) (k : ℕ), x.value = n → places.value = k → k ≤ 136 →
      |n| * 10 ^ k < 10 ^ 136 → (x.shl places >>= fun y => y.shr places) = .ok x := by
  refine ⟨?_, ?_, ?_⟩
  · intro x places n k hx few hk near
    exact shift_eq digit hx few hk near
  · intro x places other
    exact shift_refused other
  · intro x places n k hx hk near room
    exact Decimal.shl_bind_shr hx hk near room

/-- Five digits are shifted by two places to either side, and not by six. -/
theorem Precision.shift_arithmetic_five :
    0 < (⟨5⟩ : Precision).digits ∧
    shift ⟨5⟩ (.ofInt (-12345)) (.ofInt 2) = .ok (.ofInt (-34500)) ∧
    shift ⟨5⟩ (.ofInt (-12345)) (.ofInt (-2)) = .ok (.ofInt (-123)) ∧
    shift ⟨5⟩ (.ofInt (-12345)) (.ofInt 6) = .error .invalidOperation ∧
    ((Decimal.ofInt (-12345)).shl (.ofInt 131) >>= fun y => y.shr (.ofInt 131)) =
      .ok (.ofInt (-12345)) := by
  have digit : 0 < (⟨5⟩ : Precision).digits := by decide
  obtain ⟨answered, refused, restored⟩ := shift_arithmetic digit
  have small {n : ℤ} (few : |n| < 10 ^ 5) : |n| < 10 ^ 1000000 :=
    few.trans_le (pow_le_pow_right₀ (by decide) (by decide))
  have operand : (Decimal.ofInt (-12345)).value = (-12345 : ℤ) := Decimal.value_ofInt _
  refine ⟨digit, ?_, ?_, ?_, ?_⟩
  · refine (answered _ _ _ 2 operand (by decide) (Decimal.value_ofInt _) (by decide)).trans ?_
    exact if_pos (small (by decide))
  · refine (answered _ _ _ (-2) operand (by decide) (Decimal.value_ofInt _) (by decide)).trans ?_
    exact if_pos (small (by decide))
  · refine refused _ _ (.inr ?_)
    rintro ⟨k, places, near⟩
    rw [Decimal.value_ofInt, Int.cast_inj] at places
    subst places
    exact absurd near (by decide)
  · exact restored _ _ _ 131 operand (Decimal.value_ofInt 131) (by decide) (by decide)

/-- In a precision of more than a million digits a one can be shifted out of the exponent bounds. -/
theorem Precision.shift_out_of_bounds :
    shift ⟨1000001⟩ (.ofInt 1) (.ofInt 1000000) = .error .overflow := by
  decide

end Calculator
