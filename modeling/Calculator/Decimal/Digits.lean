/-!
# Decimal digits of natural numbers

`digitCount` counts the decimal digits of a number without writing them: it
divides by the largest power of ten that the binary length promises to fit, so
a number of a million digits takes a handful of divisions. `dropZeros` removes
the zeros a number ends in, and `roundDiv` divides to the nearest integer with
halves going up.
-/

namespace Calculator

/-- A power of ten. -/
def tenPow (n : Nat) : Nat := Nat.pow 10 n

/-- Counts digits in blocks: `10 ^ block ≤ n`, since `10 ^ 3 < 2 ^ 10`. -/
def countDigits : Nat → Nat → Nat
  | 0, _ => 1
  | fuel + 1, n =>
    if n < 10 then 1
    else
      let block := max 1 (n.log2 * 3 / 10)
      block + countDigits fuel (n / tenPow block)

/-- The number of decimal digits of `n`; zero is written with one digit. -/
def digitCount (n : Nat) : Nat := countDigits n.log2 n

/-- Removes at most `limit` trailing zeros: what is left, and how many went. -/
def dropZeros : Nat → Nat → Nat × Nat
  | 0, n => (n, 0)
  | limit + 1, n =>
    if n % 10 = 0 then
      let (m, k) := dropZeros limit (n / 10)
      (m, k + 1)
    else (n, 0)

/-- `n / d` to the nearest integer, a half going up. -/
def roundDiv (n d : Nat) : Nat := (2 * n + d) / (2 * d)

@[simp] theorem tenPow_zero : tenPow 0 = 1 := rfl

theorem tenPow_succ (n : Nat) : tenPow (n + 1) = tenPow n * 10 := rfl

theorem log2_div_ten {n : Nat} (h : 10 ≤ n) : (n / 10).log2 < n.log2 := by
  have pos : n / 10 ≠ 0 := by omega
  have low : 2 ^ (n / 10).log2 ≤ n / 10 := Nat.log2_self_le pos
  have : 2 ^ ((n / 10).log2 + 1) ≤ n := by rw [Nat.pow_succ]; omega
  exact (Nat.le_log2 (by omega)).2 this

/-- Nothing but zeros is lost. -/
theorem dropZeros_mul (limit n : Nat) :
    (dropZeros limit n).1 * tenPow (dropZeros limit n).2 = n := by
  induction limit generalizing n with
  | zero => simp [dropZeros]
  | succ limit ih =>
    rw [dropZeros]
    split
    · rename_i h
      have := ih (n / 10)
      simp only [tenPow_succ, ← Nat.mul_assoc, this]
      omega
    · simp

/-- What is left of a positive number does not end in a zero. -/
theorem dropZeros_mod {limit n : Nat} (pos : n ≠ 0) (enough : n.log2 ≤ limit) :
    (dropZeros limit n).1 % 10 ≠ 0 := by
  induction limit generalizing n with
  | zero =>
    have : n < 2 ^ (n.log2 + 1) := Nat.lt_log2_self
    have one : n.log2 = 0 := by omega
    rw [one] at this
    have : n = 1 := by omega
    simp [dropZeros, this]
  | succ limit ih =>
    rw [dropZeros]
    split
    · rename_i h
      have ten : 10 ≤ n := by omega
      have := log2_div_ten ten
      exact ih (by omega) (by omega)
    · assumption

end Calculator
