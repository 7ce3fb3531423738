import Mathlib.Data.Nat.Prime.Basic
import Calculator.Proofs.Precision.Power

/-!
# Powers that need no rounding

A number whose last digit is not zero has powers of the same kind: ten divides no power of what it
does not divide. So the coefficient of a power is the power of the coefficient, the powers of a
number get longer and move away from one, and when a power needs no rounding none of the smaller
ones does that repeated squaring goes through.
-/

namespace Calculator

/-- A power ends in zero only if its base does. -/
theorem pow_mod_ten {c : ℕ} (last : c % 10 ≠ 0) (k : ℕ) : c ^ k % 10 ≠ 0 := by
  intro multiple
  have two : 2 ∣ c := Nat.prime_two.dvd_of_dvd_pow (n := k) (by omega)
  have five : 5 ∣ c := Nat.prime_five.dvd_of_dvd_pow (n := k) (by omega)
  omega

namespace Decimal

variable {x z : Decimal} {k n : ℕ}

/-- The power as it is. -/
def exactPower (x : Decimal) (k : ℕ) : Decimal where
  coefficient := x.coefficient ^ k
  exponent := x.exponent * k
  reduced := by
    rcases x.reduced with last | ⟨vanishes, low⟩
    · left
      rw [Int.natAbs_pow]
      exact pow_mod_ten last k
    · rcases k.eq_zero_or_pos with rfl | pos
      · left
        simp
      · right
        rw [vanishes, low, zero_pow pos.ne', zero_mul]
        exact ⟨rfl, rfl⟩

@[simp] theorem value_exactPower (x : Decimal) (k : ℕ) : (x.exactPower k).value = x.value ^ k := by
  rw [value, value, mul_pow, ← zpow_natCast (10 ^ x.exponent), ← zpow_mul]
  simp [exactPower]

theorem exactPower_one (x : Decimal) : x.exactPower 1 = x := value_injective (by simp)

theorem exactPower_zero (x : Decimal) : x.exactPower 0 = 1 := value_injective (by simp)

/-- A smaller power has no more digits. -/
theorem digits_exactPower_le (le : k ≤ n) :
    (x.exactPower k).digits ≤ (x.exactPower n).digits := by
  have grows : Nat.log 10 (x.coefficient.natAbs ^ k) ≤ Nat.log 10 (x.coefficient.natAbs ^ n) := by
    rcases x.coefficient.natAbs.eq_zero_or_pos with vanishes | base
    · rcases k.eq_zero_or_pos with rfl | some
      · simp
      · rw [vanishes, zero_pow some.ne', zero_pow (some.trans_le le).ne']
    · exact Nat.log_mono_right (Nat.pow_le_pow_right base le)
  simp only [digits, exactPower, Int.natAbs_pow, digitCount_eq]
  exact Nat.succ_le_succ grows

end Decimal

namespace Precision

variable {p : Precision} {x : Decimal} {q : ℚ} {k n : ℕ}

open Decimal (exactPower)

/-- Smaller powers stay between one and the power. -/
theorem InRange.pow (h : InRange (q ^ n)) (le : k ≤ n) : InRange (q ^ k) := by
  have bound : -exponentBound ≤ 0 ∧ 0 ≤ exponentBound := by decide
  by_cases vanishes : q ^ k = 0
  · exact .inl vanishes
  · have one : Int.log 10 (1 : ℚ) = 0 := Int.log_one_right _
    rcases k.eq_zero_or_pos with rfl | some
    · rw [pow_zero]
      refine .inr ?_
      rw [abs_one, one]
      exact bound
    · have nonzero : q ≠ 0 := by
        rintro rfl
        exact vanishes (zero_pow some.ne')
      have pos : 0 < |q| := abs_pos.2 nonzero
      rcases h with zero | ⟨low, high⟩
      · exact absurd zero (pow_ne_zero n nonzero)
      · refine .inr ?_
        rw [abs_pow] at low high ⊢
        rcases le_total 1 |q| with large | small
        · have above := Int.log_mono_right (b := 10) zero_lt_one (one_le_pow₀ large (n := k))
          have below := Int.log_mono_right (b := 10) (pow_pos pos k) (pow_le_pow_right₀ large le)
          omega
        · have above := Int.log_mono_right (b := 10) (pow_pos pos k) (pow_le_one₀ pos.le small)
          have below := Int.log_mono_right (b := 10) (pow_pos pos n)
            (pow_le_pow_of_le_one pos.le small le)
          omega

/-- A smaller power is held where a larger one is. -/
theorem Holds.exactPower (h : p.Holds (x.exactPower n)) (le : k ≤ n) :
    p.Holds (x.exactPower k) := by
  refine ⟨?_, ?_⟩
  · exact (Decimal.digits_exactPower_le le).trans h.few
  · rw [Decimal.value_exactPower]
    exact InRange.pow (by rw [← Decimal.value_exactPower]; exact h.inRange) le

/-- Repeated squaring goes through powers that are not larger than the last one: the square is only
taken where a further digit of the exponent needs it. -/
theorem multiplyPower_exact (digit : 0 < p.digits) (limit : ℕ) (enough : n < 2 ^ limit) {i j : ℕ}
    (h : p.Holds (x.exactPower (i + j * n))) :
    p.multiplyPower limit n (x.exactPower i) (x.exactPower j) = .ok (x.exactPower (i + j * n)) := by
  induction limit generalizing n i j with
  | zero =>
    have none : n = 0 := by simpa using enough
    rw [multiplyPower, none, mul_zero, add_zero]
  | succ limit ih =>
    by_cases none : n = 0
    · rw [multiplyPower, if_pos none, none, mul_zero, add_zero]
      rfl
    · rw [multiplyPower_succ limit none]
      have product {u v : ℕ} (le : u + v ≤ i + j * n) :
          p.multiply (x.exactPower u) (x.exactPower v) = .ok (x.exactPower (u + v)) :=
        multiply_of_holds digit (h.exactPower (by omega)) (h.exactPower (by omega))
          (h.exactPower le) (by simp [pow_add])
      have half : n = n % 2 + 2 * (n / 2) := (Nat.mod_add_div n 2).symm
      have split : i + j * n = i + j * (n % 2) + (j + j) * (n / 2) := by
        nth_rewrite 1 [half]
        ring
      -- `i` and `j` are the exponents of the result and of the square.
      refine bind_eq_ok.2 ⟨x.exactPower (i + j * (n % 2)), ?_, ?_⟩
      · split
        · rename_i odd
          rw [odd, mul_one]
          exact product (Nat.add_le_add_left (Nat.le_mul_of_pos_right j (by omega)) i)
        · rename_i even
          rw [show n % 2 = 0 by omega, mul_zero, add_zero]
      · split
        · rename_i last
          rw [split, last, mul_zero, add_zero]
        · rename_i further
          rw [split] at h product ⊢
          have square := product (u := j) (v := j)
            ((Nat.le_mul_of_pos_right _ (by omega)).trans (Nat.le_add_left _ _))
          exact bind_eq_ok.2 ⟨_, square, ih (by omega) h⟩

/-- A power that the precision holds is formed as it is. -/
theorem integerPower_exact (digit : 0 < p.digits) (hx : p.Holds x)
    (power : p.Holds (x.exactPower n)) : p.integerPower x n = .ok (x.exactPower n) := by
  have natural : p.widened.naturalPower x n = .ok (x.exactPower n) := by
    refine bind_eq_ok.2 ⟨x, round_of_holds p.widened_pos hx.widened, ?_⟩
    have run := multiplyPower_exact (x := x) (i := 0) (j := 1) p.widened_pos (n.log2 + 1)
      Nat.lt_log2_self
      (by rw [zero_add, one_mul]; exact power.widened)
    rwa [zero_add, one_mul, Decimal.exactPower_zero, Decimal.exactPower_one] at run
  simp only [integerPower_eq, Int.natAbs_natCast, not_lt.2 (Int.natCast_nonneg n), if_false]
  exact bind_eq_ok.2 ⟨_, natural, round_of_holds digit power⟩

/-! ## Exponents beyond sixty-four bits -/

/-- Powers with large exponents that a precision holds are those of one and minus one: others have
too many digits, or are powers of ten beyond the bounds. -/
theorem abs_eq_one_of_holds (digit : 0 < p.digits) (nonzero : x.value ≠ 0)
    (long : 4 * p.digits ≤ n) (far : exponentBound < n) (power : p.Holds (x.exactPower n)) :
    |x.value| = 1 := by
  have coefficient : x.coefficient ≠ 0 := mt Decimal.value_eq_zero_iff.2 nonzero
  have single : x.coefficient.natAbs = 1 := by
    have few := (Decimal.digits_le_iff digit).1 power.few
    rw [exactPower, Int.natAbs_pow] at few
    by_contra several
    refine absurd few (not_lt.2 ?_)
    calc 10 ^ p.digits ≤ (2 ^ 4) ^ p.digits := Nat.pow_le_pow_left (by decide) _
      _ = 2 ^ (4 * p.digits) := (pow_mul 2 4 _).symm
      _ ≤ 2 ^ n := Nat.pow_le_pow_right (by decide) long
      _ ≤ x.coefficient.natAbs ^ n := Nat.pow_le_pow_left (by omega) n
  have digits : (x.exactPower n).digits = 1 := by
    rw [Decimal.digits, exactPower, Int.natAbs_pow, single, one_pow]
    decide
  have level : x.exponent = 0 := by
    rcases holds_iff.1 power with ⟨-, vanishes | bounds⟩
    · rw [Decimal.isZero_iff_value, Decimal.value_exactPower] at vanishes
      exact absurd vanishes (pow_ne_zero n nonzero)
    · rw [Decimal.adjusted, digits] at bounds
      have product : |x.exponent * n| < n := by
        rw [abs_lt]
        constructor <;> (simp only [exactPower] at bounds; omega)
      rw [abs_mul, Nat.abs_cast] at product
      have small : |x.exponent| < 1 := by
        by_contra large
        have multiple := le_mul_of_one_le_left (Int.natCast_nonneg n) (not_lt.1 large)
        exact absurd product (not_lt.2 multiple)
      exact Int.abs_lt_one_iff.1 small
  rw [Decimal.value, level, zpow_zero, mul_one, ← Int.cast_abs, Int.abs_eq_natAbs, single]
  rfl

theorem multiply_zero_left (digit : 0 < p.digits) (y : Decimal) : p.multiply .zero y = .ok .zero := by
  have held : p.Holds .zero := ⟨digit, .inl Decimal.value_zero⟩
  have answer := multiply_answers (p := p) .zero y digit
  rw [lift, Decimal.roundTo_eq_self held.few, Decimal.value_zero, zero_mul,
    ← Decimal.value_zero] at answer
  exact answer.eq_ok digit held

/-- The logarithm of one is zero, so only the sign is computed. -/
theorem power_of_unit {e : Decimal} {m : ℤ} (unit : |x.value| = 1) (whole : e.value = m)
    (long : ¬IsShort m) (fits : e.adjusted < p.digits ∨ 18 < e.adjusted) :
    p.power x e = p.round (if x.isNegative && e.isOdd then -1 else 1) := by
  have base : x.value ≠ 0 := by
    intro vanishes
    rw [vanishes, abs_zero] at unit
    exact absurd unit (by norm_num)
  have exponent : m ≠ 0 := by
    rintro rfl
    exact long (by decide)
  have one : x.abs = 1 := Decimal.value_injective (by rw [Decimal.value_abs, unit, Decimal.value_one])
  have logarithm : p.widened.logarithmOfPower x e = .ok .zero := by
    have ln : p.widened.ln x.abs = .ok .zero := by
      rw [one, Precision.ln, if_neg (by decide), if_pos rfl]
    exact bind_eq_ok.2 ⟨_, ln, multiply_zero_left p.widened_pos e⟩
  rw [power_eq base whole exponent, squaringExponent_eq whole fits, if_neg long, logarithm]
  rfl

/-- Minus one is its own odd powers. -/
theorem signed_unit {e : Decimal} (unit : |x.value| = 1) (whole : e.value = n) :
    (if x.isNegative && e.isOdd then -1 else 1) = x.exactPower n := by
  have odd := isOdd_iff (e := e) (k := n) whole
  apply Decimal.value_injective
  rw [Decimal.value_exactPower]
  rcases (abs_eq zero_le_one).1 unit with positive | negative
  · have sign : x.isNegative = false := by
      rw [← Bool.not_eq_true, Decimal.isNegative_iff_value, positive]
      norm_num
    rw [sign, Bool.false_and, if_neg Bool.false_ne_true, positive, one_pow, Decimal.value_one]
  · have sign : x.isNegative = true := by
      rw [Decimal.isNegative_iff_value, negative]
      norm_num
    rw [sign, Bool.true_and, negative]
    rcases n.even_or_odd with even | uneven
    · rw [if_neg (by rw [odd]; have := Nat.even_iff.1 even; omega), even.neg_one_pow,
        Decimal.value_one]
    · rw [if_pos (odd.2 (by have := Nat.odd_iff.1 uneven; omega)), uneven.neg_one_pow,
        Decimal.value_neg, Decimal.value_one]

/-- A power that the precision holds is its answer, for exponents of any size. -/
theorem power_exact {e : Decimal} (digit : 0 < p.digits) (bounded : p.digits ≤ 2 ^ 61)
    (hx : p.Holds x) (nonzero : x.value ≠ 0) (whole : e.value = n) (some : n ≠ 0)
    (fits : e.adjusted < p.digits ∨ 18 < e.adjusted) (power : p.Holds (x.exactPower n)) :
    p.power x e = .ok (x.exactPower n) := by
  have whole_int : e.value = (n : ℤ) := whole
  by_cases short : IsShort n
  · rw [power_eq nonzero whole_int (by exact_mod_cast some), squaringExponent_eq whole_int fits,
      if_pos short]
    exact integerPower_exact digit hx power
  · have large : 9223372036854775807 < n := by
      rw [IsShort] at short
      omega
    have bound : exponentBound = 999999 := rfl
    have unit := abs_eq_one_of_holds digit nonzero (by omega) (by omega) power
    rw [power_of_unit unit whole_int short fits, signed_unit unit whole]
    exact round_of_holds digit power

end Precision

end Calculator
