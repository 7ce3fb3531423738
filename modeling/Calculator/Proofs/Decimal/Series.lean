import Mathlib.Tactic.Linarith
import Mathlib.Tactic.Ring
import Calculator.Decimal.Series
import Calculator.Proofs.Decimal.Digits

/-!
# Bounds for the scaled series

Every term is cut off toward zero, so a sum keeps the sign of its first term and stays below the
geometric series that the ratio of successive terms allows. This is coarse, but it is all that the
sign of a logarithm and the side of one of an exponential take.
-/

namespace Calculator.Series

variable {unit ratio ratio' power power' term x z z' : ℤ} {limit n odd scale : ℕ}

/-! ## Quotients that are cut off -/

/-- The cut-off quotient is not above the quotient. -/
theorem tdiv_nonneg_mul_le {a b : ℤ} (ha : 0 ≤ a) (hb : 0 < b) : b * a.tdiv b ≤ a := by
  rw [Int.tdiv_eq_ediv_of_nonneg ha]
  exact Int.mul_ediv_self_le hb.ne'

/-- A product with a fraction is the fraction of the other factor at most. -/
theorem mul_tdiv_le {a b c m k : ℤ} (ha : 0 ≤ a) (hb : 0 ≤ b) (hc : 0 < c) (hk : 0 ≤ k)
    (small : k * b ≤ m * c) : k * (a * b).tdiv c ≤ m * a := by
  refine le_of_mul_le_mul_left ?_ hc
  calc c * (k * (a * b).tdiv c) = k * (c * (a * b).tdiv c) := by ring
    _ ≤ k * (a * b) := mul_le_mul_of_nonneg_left (tdiv_nonneg_mul_le (mul_nonneg ha hb) hc) hk
    _ = a * (k * b) := by ring
    _ ≤ a * (m * c) := mul_le_mul_of_nonneg_left small ha
    _ = c * (m * a) := by ring

/-! ## Sums over odd numbers -/

/-- The series of odd powers is odd. -/
theorem oddReciprocals_neg : oddReciprocals unit ratio limit odd (-power) =
    -oddReciprocals unit ratio limit odd power := by
  induction limit generalizing odd power with
  | zero => rfl
  | succ limit ih =>
    rw [oddReciprocals, oddReciprocals]
    by_cases vanishes : power = 0
    · simp [vanishes]
    · rw [if_neg (neg_ne_zero.2 vanishes), if_neg vanishes, Int.neg_tdiv, neg_mul, Int.neg_tdiv, ih]
      ring

/-- A series of terms that are not negative is not negative. -/
theorem oddReciprocals_nonneg (hu : 0 ≤ unit) (hr : 0 ≤ ratio) (hp : 0 ≤ power) :
    0 ≤ oddReciprocals unit ratio limit odd power := by
  induction limit generalizing odd power with
  | zero => exact le_rfl
  | succ limit ih =>
    rw [oddReciprocals]
    split
    · exact le_rfl
    · have rest : 0 ≤ oddReciprocals unit ratio limit (odd + 2) _ :=
        ih (Int.tdiv_nonneg (mul_nonneg hp hr) hu)
      have first := Int.tdiv_nonneg hp (Int.natCast_nonneg odd)
      omega

/-- The terms fall to a ninth each. -/
theorem oddReciprocals_le (hu : 0 < unit) (hr : 0 ≤ ratio) (small : 9 * ratio ≤ unit)
    (hp : 0 ≤ power) : 8 * oddReciprocals unit ratio limit odd power ≤ 9 * power := by
  induction limit generalizing odd power with
  | zero =>
    rw [oddReciprocals]
    omega
  | succ limit ih =>
    rw [oddReciprocals]
    split
    · omega
    · have next := mul_tdiv_le (m := 1) hp hr hu (by decide) (by omega : 9 * ratio ≤ 1 * unit)
      have rest : 8 * oddReciprocals unit ratio limit (odd + 2) _ ≤ _ :=
        ih (Int.tdiv_nonneg (mul_nonneg hp hr) hu.le)
      have first : power.tdiv odd ≤ power := Int.tdiv_le_self _ hp
      omega

/-- Larger powers give a larger sum, term by term, in spite of the cuts. -/
theorem oddReciprocals_mono (some : 0 < odd) (hu : 0 < unit) (hr : 0 ≤ ratio)
    (ratios : ratio ≤ ratio') (hp : 0 ≤ power) (powers : power ≤ power') :
    oddReciprocals unit ratio limit odd power ≤ oddReciprocals unit ratio' limit odd power' := by
  induction limit generalizing odd power power' with
  | zero => exact le_rfl
  | succ limit ih =>
    by_cases vanishes : power = 0
    · rw [oddReciprocals, if_pos vanishes]
      exact oddReciprocals_nonneg hu.le (hr.trans ratios) (hp.trans powers)
    · rw [oddReciprocals, oddReciprocals, if_neg vanishes, if_neg (by omega)]
      refine add_le_add (Int.tdiv_le_tdiv (by exact_mod_cast some) powers) (ih (by omega) ?_ ?_)
      · exact Int.tdiv_nonneg (mul_nonneg hp hr) hu.le
      · exact Int.tdiv_le_tdiv hu (mul_le_mul powers ratios hr (hp.trans powers))

/-! ## The inverse hyperbolic tangent -/

theorem tenPow_pos (scale : ℕ) : (0 : ℤ) < tenPow scale := by
  rw [tenPow_eq]
  positivity

theorem ten_le_tenPow (some : 0 < scale) : (10 : ℤ) ≤ tenPow scale := by
  rw [tenPow_eq]
  exact_mod_cast Nat.le_self_pow some.ne' 10

/-- A cut-off square is not negative. -/
theorem square_nonneg (scale : ℕ) (z : ℤ) : 0 ≤ (z * z).tdiv (tenPow scale) :=
  Int.tdiv_nonneg (mul_self_nonneg z) (tenPow_pos scale).le

theorem artanh_neg : artanh scale (-z) = -artanh scale z := by
  unfold artanh
  dsimp only
  rw [neg_mul_neg, oddReciprocals_neg]

theorem artanh_nonneg (scale : ℕ) (hz : 0 ≤ z) : 0 ≤ artanh scale z :=
  oddReciprocals_nonneg (tenPow_pos scale).le (square_nonneg scale z) hz

/-- The first term is the argument. -/
theorem le_artanh (scale : ℕ) (hz : 0 ≤ z) : z ≤ artanh scale z := by
  have rest : 0 ≤ oddReciprocals (tenPow scale) ((z * z).tdiv (tenPow scale)) (2 * scale + 9) (1 + 2)
      ((z * (z * z).tdiv (tenPow scale)).tdiv (tenPow scale)) :=
    oddReciprocals_nonneg (tenPow_pos scale).le (square_nonneg scale z)
      (Int.tdiv_nonneg (mul_nonneg hz (square_nonneg scale z)) (tenPow_pos scale).le)
  unfold artanh oddTerms
  dsimp only
  rw [oddReciprocals]
  split
  · omega
  · rw [Int.natCast_one, Int.tdiv_one]
    omega

/-- The square of a third is a ninth. -/
theorem artanh_le (scale : ℕ) (hz : 0 ≤ z) (third : 3 * z ≤ tenPow scale) :
    8 * artanh scale z ≤ 9 * z := by
  refine oddReciprocals_le (tenPow_pos scale) (square_nonneg scale z) ?_ hz
  have square := mul_tdiv_le (m := 3) hz hz (tenPow_pos scale) (by decide : (0 : ℤ) ≤ 9)
    (by omega : 9 * z ≤ 3 * (tenPow scale : ℤ))
  omega

/-- The cut-off inverse hyperbolic tangent is monotonic. -/
theorem artanh_mono (scale : ℕ) (hz : 0 ≤ z) (le : z ≤ z') : artanh scale z ≤ artanh scale z' := by
  refine oddReciprocals_mono Nat.one_pos (tenPow_pos scale) (square_nonneg scale z) ?_ hz le
  exact Int.tdiv_le_tdiv (tenPow_pos scale) (mul_le_mul le le hz (hz.trans le))

/-! ## The logarithms of two and ten -/

/-- The logarithm of two is more than two thirds, but for a few units. -/
theorem le_lnTwo (scale : ℕ) : 2 * (tenPow scale : ℤ) ≤ 3 * lnTwo scale + 4 := by
  have first := le_artanh scale (z := tenPow scale / 3) (by omega)
  unfold lnTwo
  omega

/-- And it is less than three quarters. -/
theorem lnTwo_le (scale : ℕ) : 4 * lnTwo scale ≤ 3 * tenPow scale := by
  have sum := artanh_le scale (z := tenPow scale / 3) (by omega) (by omega)
  unfold lnTwo
  omega

/-- The logarithm of ten is less than five halves. -/
theorem lnTen_le (scale : ℕ) : 2 * lnTen scale ≤ 5 * tenPow scale := by
  have two := lnTwo_le scale
  have sum := artanh_le scale (z := tenPow scale / 9) (by omega) (by omega)
  unfold lnTen
  omega

/-- It is put together from that of eight and that of five quarters. -/
theorem lnTen_eq (scale : ℕ) :
    lnTen scale = 3 * lnTwo scale + 2 * artanh scale (tenPow scale / 9) := rfl

theorem lnTen_pos (some : 0 < scale) : 0 < lnTen scale := by
  have fine := ten_le_tenPow some
  have two := le_lnTwo scale
  have ninth := artanh_nonneg scale (z := tenPow scale / 9) (by omega)
  rw [lnTen_eq]
  omega

/-! ## The exponential -/

/-- The sum changes its sign with the first term. -/
theorem reciprocalFactorials_neg : reciprocalFactorials unit x limit n (-term) =
    -reciprocalFactorials unit x limit n term := by
  induction limit generalizing n term with
  | zero => rfl
  | succ limit ih =>
    rw [reciprocalFactorials, reciprocalFactorials]
    by_cases vanishes : term = 0
    · simp [vanishes]
    · rw [if_neg (neg_ne_zero.2 vanishes), if_neg vanishes, neg_mul, Int.neg_tdiv, ih]
      ring

/-- From the second power on a term is at most five eighths of the one before. -/
theorem next_term_le (hu : 0 < unit) (hx : 0 ≤ x) (small : 4 * x ≤ 5 * unit) (ht : 0 ≤ term)
    (second : 2 ≤ n) : 8 * (term * x).tdiv (unit * n) ≤ 5 * term := by
  have divisor : unit * 2 ≤ unit * n := mul_le_mul_of_nonneg_left (by exact_mod_cast second) hu.le
  exact mul_tdiv_le ht hx (by omega) (by decide) (by omega)

/-- The next term is not negative if this one is not. -/
theorem next_term_nonneg (hu : 0 < unit) (hx : 0 ≤ x) (ht : 0 ≤ term) (n : ℕ) :
    0 ≤ (term * x).tdiv (unit * n) :=
  Int.tdiv_nonneg (mul_nonneg ht hx) (mul_nonneg hu.le (Int.natCast_nonneg n))

/-- A rising sum lies between its first term and eight thirds of it. -/
theorem reciprocalFactorials_bounds (limit : ℕ) (hu : 0 < unit) (hx : 0 ≤ x)
    (small : 4 * x ≤ 5 * unit) (ht : 0 ≤ term) (second : 2 ≤ n) :
    0 ≤ reciprocalFactorials unit x limit n term ∧
      3 * reciprocalFactorials unit x limit n term ≤ 8 * term := by
  induction limit generalizing n term with
  | zero =>
    rw [reciprocalFactorials]
    omega
  | succ limit ih =>
    rw [reciprocalFactorials]
    split
    · omega
    · have next := next_term_le hu hx small ht second
      have rest := ih (next_term_nonneg hu hx ht n) (by omega : 2 ≤ n + 1)
      omega

@[simp] theorem reciprocalFactorials_zero : reciprocalFactorials unit x limit n 0 = 0 := by
  cases limit <;> rfl

/-- With a negative argument the terms alternate. -/
theorem reciprocalFactorials_neg_succ : reciprocalFactorials unit (-x) (limit + 1) n term =
    term - reciprocalFactorials unit (-x) limit (n + 1) ((term * x).tdiv (unit * n)) := by
  rw [reciprocalFactorials]
  split
  · rename_i vanishes
    simp [vanishes]
  · rw [mul_neg, Int.neg_tdiv, reciprocalFactorials_neg, ← sub_eq_add_neg]

/-- An alternating sum lies between nothing and its first term. -/
theorem reciprocalFactorials_neg_bounds (limit : ℕ) (hu : 0 < unit) (hx : 0 ≤ x)
    (small : 4 * x ≤ 5 * unit) (ht : 0 ≤ term) (second : 2 ≤ n) :
    0 ≤ reciprocalFactorials unit (-x) limit n term ∧
      reciprocalFactorials unit (-x) limit n term ≤ term := by
  induction limit generalizing n term with
  | zero =>
    rw [reciprocalFactorials]
    omega
  | succ limit ih =>
    have next := next_term_le hu hx small ht second
    have rest := ih (next_term_nonneg hu hx ht n) (by omega : 2 ≤ n + 1)
    rw [reciprocalFactorials_neg_succ]
    omega

/-- The second term of the exponential is its argument. -/
theorem exp_eq (scale : ℕ) (x : ℤ) : exp scale x =
    tenPow scale + reciprocalFactorials (tenPow scale) x (2 * scale + 9) 2 x := by
  have unit := tenPow_pos scale
  rw [exp, reciprocalFactorials, if_neg unit.ne', Int.natCast_one, mul_one,
    Int.mul_tdiv_cancel_left x unit.ne']

/-- Of a reduced argument from zero on, the exponential is between one and ten. -/
theorem exp_of_nonneg (scale : ℕ) (hx : 0 ≤ x) (small : 4 * x ≤ 5 * tenPow scale) :
    (tenPow scale : ℤ) ≤ exp scale x ∧ exp scale x ≤ 10 * tenPow scale := by
  have sum := reciprocalFactorials_bounds (2 * scale + 9) (tenPow_pos scale) hx small hx
    le_rfl
  rw [exp_eq]
  omega

/-- What the terms up to the third leave of one is more than a tenth. -/
theorem tenth_le_of_terms {u x t t' : ℤ} (fine : 10 ≤ u) (small : 4 * x ≤ 5 * u)
    (second : x * x < u * 2 * (t + 1)) (third : 12 * t' ≤ 5 * t) : u ≤ 10 * (u - x + t - t') := by
  nlinarith [mul_nonneg (sub_nonneg.2 small) (by linarith : (0 : ℤ) ≤ 61 * u - 28 * x)]

/-- How far the exponential falls is seen from its terms up to the third. -/
theorem exp_of_neg (scale : ℕ) (hx : 0 ≤ x) (small : 4 * x ≤ 5 * tenPow scale)
    (fine : (10 : ℤ) ≤ tenPow scale) :
    (tenPow scale : ℤ) ≤ 10 * exp scale (-x) ∧ exp scale (-x) ≤ tenPow scale := by
  have unit := tenPow_pos scale
  constructor
  · have second := next_term_nonneg unit hx hx 2
    have third := next_term_nonneg unit hx second (2 + 1)
    have rest := reciprocalFactorials_neg_bounds (2 * scale + 7) unit hx small third
      (by decide : 2 ≤ 2 + 1 + 1)
    have cut : x * x < tenPow scale * 2 * ((x * x).tdiv (tenPow scale * (2 : ℕ)) + 1) := by
      rw [Int.tdiv_eq_ediv_of_nonneg (mul_self_nonneg x), mul_add_one]
      exact Int.lt_mul_ediv_self_add (by omega : (0 : ℤ) < tenPow scale * 2)
    have ratio : 12 * ((x * x).tdiv (tenPow scale * (2 : ℕ)) * x).tdiv
        (tenPow scale * (2 + 1 : ℕ)) ≤ 5 * (x * x).tdiv (tenPow scale * (2 : ℕ)) :=
      mul_tdiv_le second hx (by omega) (by decide) (by push_cast; omega)
    have terms := tenth_le_of_terms fine small cut ratio
    rw [exp_eq, reciprocalFactorials_neg, reciprocalFactorials_neg_succ,
      reciprocalFactorials_neg_succ]
    omega
  · have sum := reciprocalFactorials_neg_bounds (2 * scale + 9) unit hx small hx le_rfl
    rw [exp_eq, reciprocalFactorials_neg]
    omega

/-- An exponential is on the side of one that its argument tells, and within a factor of ten. -/
theorem exp_bounds (low : -(5 * tenPow scale) ≤ 4 * x) (high : 4 * x ≤ 5 * tenPow scale)
    (fine : (10 : ℤ) ≤ tenPow scale) :
    (tenPow scale : ℤ) ≤ 10 * exp scale x ∧ exp scale x ≤ 10 * tenPow scale ∧
      (0 ≤ x → tenPow scale ≤ exp scale x) ∧ (x ≤ 0 → exp scale x ≤ tenPow scale) := by
  rcases lt_or_ge x 0 with negative | positive
  · have falls := exp_of_neg scale (x := -x) (by omega) (by omega) fine
    rw [neg_neg] at falls
    omega
  · have rises := exp_of_nonneg scale positive high
    refine ⟨by omega, rises.2, fun _ => rises.1, fun nonpositive => ?_⟩
    have none : x = 0 := le_antisymm nonpositive positive
    have one := (exp_of_neg scale le_rfl (by omega) fine).2
    rwa [neg_zero, ← none] at one

end Calculator.Series
