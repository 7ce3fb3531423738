import Mathlib.Tactic.IntervalCases
import Calculator.Format.Layout
import Calculator.Precision.Numeral
import Calculator.Proofs.Decimal.Digits

/-!
# Rows of digits

The number that a row of digits denotes, and the row of digits that a number is written with.
-/

namespace Calculator

/-- The number that digits denote is that of the standard library. -/
theorem digitsValue_eq (cs : List Char) : digitsValue cs = Nat.ofDigitChars 10 cs 0 := rfl

/-- Digits behind others move them up. -/
theorem digitsValue_append (front back : List Char) :
    digitsValue (front ++ back) = digitsValue front * 10 ^ back.length + digitsValue back := by
  rw [digitsValue_eq, Nat.ofDigitChars_append, Nat.ofDigitChars_eq_ofDigitChars_zero, Nat.mul_comm]
  rfl

theorem digitsValue_singleton (c : Char) : digitsValue [c] = c.toNat - '0'.toNat := by
  simp [digitsValue]

@[simp] theorem digitsValue_replicate_zero (k : Nat) :
    digitsValue (List.replicate k '0') = 0 := by
  rw [digitsValue_eq, Nat.ofDigitChars_replicate_zero, Nat.mul_zero]

/-- The zeros at the front of a row of digits do not count. -/
theorem digitsValue_dropWhile_zero (cs : List Char) :
    digitsValue (cs.dropWhile (· == '0')) = digitsValue cs := by
  induction cs with
  | nil => rfl
  | cons c cs ih =>
    by_cases zero : c = '0'
    · have front : digitsValue ['0'] = 0 := rfl
      rw [zero, List.dropWhile_cons_of_pos (by rfl), ih, ← List.singleton_append,
        digitsValue_append, front, Nat.zero_mul, Nat.zero_add]
    · rw [List.dropWhile_cons_of_neg (by simpa using zero)]

/-- The digits lie in one range. -/
theorem toNat_of_isDigit {c : Char} (h : c.isDigit) : 48 ≤ c.toNat ∧ c.toNat ≤ 57 := by
  simp only [Char.isDigit, Bool.and_eq_true, decide_eq_true_eq, UInt32.le_iff_toNat_le] at h
  exact h

theorem mem_of_isDigit {c : Char} (h : c.isDigit) : c ∈ "0123456789".toList := by
  obtain ⟨low, high⟩ := toNat_of_isDigit h
  rw [← Char.ofNat_toNat c]
  generalize c.toNat = n at low high
  interval_cases n <;> decide

/-- What holds of the ten digits holds of every character that is a digit. -/
theorem of_isDigit (p : Char → Bool) (each : "0123456789".toList.all p = true) {c : Char}
    (digit : c.isDigit) : p c = true :=
  List.all_eq_true.1 each c (mem_of_isDigit digit)

/-- A row of digits is below the power of ten that it has places for. -/
theorem digitsValue_lt {cs : List Char} (digits : ∀ c ∈ cs, c.isDigit) :
    digitsValue cs < 10 ^ cs.length := by
  induction cs with
  | nil => decide
  | cons c cs ih =>
    have front := toNat_of_isDigit (digits c List.mem_cons_self)
    have back := ih fun d mem => digits d (List.mem_cons_of_mem c mem)
    have zero : '0'.toNat = 48 := rfl
    rw [← List.singleton_append, digitsValue_append, digitsValue_singleton, List.length_append,
      Nat.pow_add]
    have step : (c.toNat - '0'.toNat) * 10 ^ cs.length ≤ 9 * 10 ^ cs.length :=
      Nat.mul_le_mul_right _ (by omega)
    have ten : 10 ^ [c].length * 10 ^ cs.length = 9 * 10 ^ cs.length + 10 ^ cs.length := by
      rw [List.length_singleton]
      omega
    omega

/-- A row that does not begin with a zero is at least the power of ten that its length tells. -/
theorem ten_pow_le_digitsValue {c : Char} (rest : List Char) (digit : c.isDigit)
    (first : c ≠ '0') : 10 ^ rest.length ≤ digitsValue (c :: rest) := by
  have bounds := toNat_of_isDigit digit
  have front : 1 ≤ c.toNat - '0'.toNat := by
    have zero : '0'.toNat = 48 := rfl
    have : c.toNat ≠ 48 := fun same => first (Char.toNat_inj.1 same)
    omega
  rw [← List.singleton_append, digitsValue_append, digitsValue_singleton]
  have := Nat.mul_le_mul_right (10 ^ rest.length) front
  omega

/-- A row of digits without the zeros at its front is empty or begins with another digit. -/
theorem dropWhile_zero_cases {cs : List Char} (digits : ∀ c ∈ cs, c.isDigit) :
    cs.dropWhile (· == '0') = [] ∨
      ∃ c rest, cs.dropWhile (· == '0') = c :: rest ∧ c.isDigit ∧ c ≠ '0' := by
  have kept : ∀ c ∈ cs.dropWhile (· == '0'), c.isDigit := fun c mem =>
    digits c ((List.dropWhile_sublist _).mem mem)
  have head := List.head?_dropWhile_not (· == '0') cs
  cases row : cs.dropWhile (· == '0') with
  | nil => exact .inl rfl
  | cons c rest =>
    rw [row] at kept head
    exact .inr ⟨c, rest, rfl, kept c List.mem_cons_self, by simpa using head⟩

/-- Without the zeros at its front, a row is as long as its number has digits. -/
theorem length_dropWhile_zero {cs : List Char} (digits : ∀ c ∈ cs, c.isDigit)
    (nonzero : digitsValue cs ≠ 0) :
    (cs.dropWhile (· == '0')).length = digitCount (digitsValue cs) := by
  rw [← digitsValue_dropWhile_zero] at nonzero ⊢
  have high := digitsValue_lt fun c mem => digits c ((List.dropWhile_sublist (· == '0')).mem mem)
  rcases dropWhile_zero_cases digits with none | ⟨c, rest, row, digit, first⟩
  · rw [none] at nonzero
    exact absurd rfl nonzero
  · rw [row] at high ⊢
    have low := ten_pow_le_digitsValue rest digit first
    have := Nat.log_eq_of_pow_le_of_lt_pow low high
    rw [digitCount_eq, List.length_cons]
    omega

/-- Without the zeros at its front, a long row is a large number. -/
theorem ten_pow_le_of_length_dropWhile_zero {cs : List Char} {k : Nat}
    (digits : ∀ c ∈ cs, c.isDigit) (long : k < (cs.dropWhile (· == '0')).length) :
    10 ^ k ≤ digitsValue cs := by
  rw [← digitsValue_dropWhile_zero]
  rcases dropWhile_zero_cases digits with none | ⟨c, rest, row, digit, first⟩
  · rw [none] at long
    cases long
  · rw [row, List.length_cons] at long
    rw [row]
    exact (Nat.pow_le_pow_right (by decide) (by omega)).trans (ten_pow_le_digitsValue rest digit first)

/-! ## The digits of a number -/

/-- The digits of a number denote it. -/
@[simp] theorem digitsValue_digitChars (n : Nat) : digitsValue (digitChars n) = n :=
  Nat.ofDigitChars_ten_toDigits

/-- The digits of a number are digits. -/
theorem isDigit_of_mem_digitChars {n : Nat} {c : Char} (h : c ∈ digitChars n) : c.isDigit :=
  Nat.isDigit_of_mem_toDigits (by decide) (by decide) h

theorem isDigit_of_mem_zeros {k : Nat} {c : Char} (h : c ∈ List.replicate k '0') : c.isDigit := by
  rw [List.eq_of_mem_replicate h]
  rfl

theorem digitChars_ne_nil (n : Nat) : digitChars n ≠ [] := Nat.toDigits_ne_nil

/-- A number below a power of ten has at most as many digits as the power has zeros. -/
theorem length_digitChars_le_iff {n k : Nat} (pos : 0 < k) :
    (digitChars n).length ≤ k ↔ n < 10 ^ k :=
  Nat.length_toDigits_le_iff (by decide) pos

/-- A number is written with as many digits as it is counted to have. -/
theorem length_digitChars (n : Nat) : (digitChars n).length = digitCount n := by
  have pos : 0 < (digitChars n).length := List.length_pos_iff.2 (digitChars_ne_nil n)
  apply Nat.le_antisymm
  · exact (length_digitChars_le_iff (digitCount_pos n)).2
      ((digitCount_le_iff (digitCount_pos n)).1 (Nat.le_refl _))
  · exact (digitCount_le_iff pos).2 ((length_digitChars_le_iff pos).1 (Nat.le_refl _))

/-- The digits of a number, with zeros before and after them. -/
def digitRow (before n after : Nat) : List Char :=
  List.replicate before '0' ++ (digitChars n ++ List.replicate after '0')

/-- Zeros around digits are digits too. -/
theorem isDigit_of_mem_digitRow {before n after : Nat} {c : Char}
    (h : c ∈ digitRow before n after) : c.isDigit := by
  rcases List.mem_append.1 h with front | rest
  · exact isDigit_of_mem_zeros front
  · exact (List.mem_append.1 rest).elim isDigit_of_mem_digitChars isDigit_of_mem_zeros

theorem digitRow_ne_nil (before n after : Nat) : digitRow before n after ≠ [] :=
  List.append_ne_nil_of_right_ne_nil _ (List.append_ne_nil_of_left_ne_nil (digitChars_ne_nil n) _)

/-- A row has the digits of the number and the zeros around it. -/
theorem length_digitRow (before n after : Nat) :
    (digitRow before n after).length = before + digitCount n + after := by
  rw [digitRow, List.length_append, List.length_append, List.length_replicate,
    List.length_replicate, length_digitChars]
  omega

/-- Only the zeros behind a number count. -/
theorem digitsValue_digitRow (before n after : Nat) :
    digitsValue (digitRow before n after) = n * 10 ^ after := by
  rw [digitRow, digitsValue_append, digitsValue_append, digitsValue_digitChars,
    digitsValue_replicate_zero, digitsValue_replicate_zero, List.length_replicate, Nat.zero_mul,
    Nat.zero_add, Nat.add_zero]

end Calculator
