import Calculator.Proofs.Decimal.Rounding
import Calculator.Proofs.Numeral.Digits

/-!
# Layouts are numerals

A `WrittenNumeral` is a row of digits that may be divided by a separator and followed by an
exponent. The three layouts write a number as the numeral of its digits between zeros: they differ
in the zeros, in the place of the separator and in the exponent. What the numeral denotes is the
magnitude of the number.
-/

namespace Calculator

/-- A numeral without a sign, by its parts: digits, the digits after the separator, if there is one,
and an exponent. -/
structure WrittenNumeral where
  whole : List Char
  fraction : List Char
  exponent : Option Int
  whole_ne_nil : whole ≠ []
  whole_digits : ∀ c ∈ whole, c.isDigit
  fraction_digits : ∀ c ∈ fraction, c.isDigit
  exponent_short : ∀ e ∈ exponent, e.natAbs < 10 ^ 15

namespace WrittenNumeral

/-- All digits of the mantissa. -/
def digits (w : WrittenNumeral) : List Char := w.whole ++ w.fraction

/-- The mantissa with its separator. -/
def mantissa (separator : Char) (w : WrittenNumeral) : List Char :=
  w.whole ++ if w.fraction = [] then [] else separator :: w.fraction

/-- The exponent as the format writes it. -/
def suffix (f : NumberFormat) (w : WrittenNumeral) : List Char :=
  match w.exponent with
  | none => []
  | some e => f.exponentSuffix e

/-- The numeral as the format writes it. -/
def chars (f : NumberFormat) (w : WrittenNumeral) : List Char :=
  w.mantissa f.separator.glyph ++ w.suffix f

/-- The number that the numeral denotes. -/
def value (w : WrittenNumeral) : ℚ :=
  digitsValue w.digits * 10 ^ (w.exponent.getD 0 - w.fraction.length)

theorem digits_isDigit (w : WrittenNumeral) : ∀ c ∈ w.digits, c.isDigit := by
  intro c mem
  rcases List.mem_append.1 mem with mem | mem
  · exact w.whole_digits c mem
  · exact w.fraction_digits c mem

/-- A numeral begins with a digit. -/
theorem head_chars {f : NumberFormat} {w : WrittenNumeral} (rest : List Char) :
    ∀ c ∈ (w.chars f ++ rest).head?, c.isDigit := by
  intro c mem
  unfold chars mantissa at mem
  rw [List.append_assoc, List.append_assoc, List.head?_append_of_ne_nil _ w.whole_ne_nil] at mem
  exact w.whole_digits c (List.mem_of_mem_head? mem)

/-- The numeral zero. -/
def zero : WrittenNumeral where
  whole := ['0']
  fraction := []
  exponent := none
  whole_ne_nil := by simp
  whole_digits := List.forall_mem_singleton.2 rfl
  fraction_digits := by simp
  exponent_short := by simp

theorem value_zero : zero.value = 0 := by
  have none : digitsValue zero.digits = 0 := rfl
  rw [value, none, Nat.cast_zero, zero_mul]

/-- The digits of a number between zeros, with a separator after the first few. -/
def ofRow (before n after count : Nat) (exponent : Option Int) (pos : 0 < count)
    (short : ∀ e ∈ exponent, e.natAbs < 10 ^ 15) : WrittenNumeral where
  whole := (digitRow before n after).take count
  fraction := (digitRow before n after).drop count
  exponent
  whole_ne_nil := by
    intro empty
    rcases List.take_eq_nil_iff.1 empty with none | none
    · omega
    · exact digitRow_ne_nil before n after none
  whole_digits c mem := isDigit_of_mem_digitRow (List.mem_of_mem_take mem)
  fraction_digits c mem := isDigit_of_mem_digitRow (List.mem_of_mem_drop mem)
  exponent_short := short

section Row

variable {before n after count : Nat} {exponent : Option Int} {pos : 0 < count}
  {short : ∀ e ∈ exponent, e.natAbs < 10 ^ 15}

/-- The mantissa of a row of digits is the row, with its separator. -/
theorem mantissa_ofRow (separator : Char) :
    (ofRow before n after count exponent pos short).mantissa separator =
      separate separator count (digitRow before n after) := by
  unfold mantissa ofRow separate
  dsimp only
  by_cases long : (digitRow before n after).length ≤ count
  · rw [if_pos (List.drop_eq_nil_of_le long), if_pos long, List.take_of_length_le long,
      List.append_nil]
  · rw [if_neg (by rw [List.drop_eq_nil_iff]; exact long), if_neg long]

/-- A row of digits denotes its number, moved by the exponent and by the digits after the
separator. -/
theorem value_ofRow : (ofRow before n after count exponent pos short).value =
    n * 10 ^ (exponent.getD 0 + after - (before + digitCount n + after - count : ℕ)) := by
  have ten : (10 : ℚ) ≠ 0 := by norm_num
  simp only [value, WrittenNumeral.digits, ofRow, List.take_append_drop, List.length_drop,
    digitsValue_digitRow, length_digitRow]
  rw [Nat.cast_mul, Nat.cast_pow, mul_assoc, Nat.cast_ofNat, ← zpow_natCast, ← zpow_add₀ ten]
  congr 2
  omega

end Row

/-! ## The numerals of a number -/

variable {x : Decimal}

/-- The digits up to the separator, and the others after it. Zeros fill the places between the
digits and the separator. -/
def plain (x : Decimal) : WrittenNumeral :=
  ofRow (-x.adjusted).toNat x.coefficient.natAbs x.exponent.toNat (x.adjusted.toNat + 1) none
    (Nat.succ_pos _) (by simp)

/-- One digit before the separator, and an exponent. -/
def exponential (x : Decimal) (short : x.adjusted.natAbs + 2 < 10 ^ 15) : WrittenNumeral :=
  ofRow 0 x.coefficient.natAbs 0 1 (some x.adjusted) Nat.one_pos (by simp; omega)

/-- Up to three digits before the separator, and an exponent unless it is zero. -/
def engineering (x : Decimal) (short : x.adjusted.natAbs + 2 < 10 ^ 15) : WrittenNumeral :=
  ofRow 0 x.coefficient.natAbs ((x.adjusted % 3 + 1).toNat - x.digits) (x.adjusted % 3 + 1).toNat
    (if x.adjusted - x.adjusted % 3 = 0 then none else some (x.adjusted - x.adjusted % 3))
    (by omega) (by grind)

end WrittenNumeral

theorem Decimal.abs_value (x : Decimal) : |x.value| = x.coefficient.natAbs * 10 ^ x.exponent := by
  rw [Decimal.value, abs_mul, abs_of_pos (Decimal.ten_zpow_pos x.exponent), ← Int.cast_abs,
    Int.abs_eq_natAbs, Int.cast_natCast]

namespace WrittenNumeral

variable {x : Decimal}

/-- The plain layout denotes the size of the number. -/
theorem value_plain (x : Decimal) : (plain x).value = |x.value| := by
  have positive : 0 < x.digits := digitCount_pos _
  have front : x.adjusted = x.exponent + x.digits - 1 := rfl
  have count : digitCount x.coefficient.natAbs = x.digits := rfl
  rw [plain, value_ofRow, Decimal.abs_value, count, Option.getD_none]
  congr 2
  omega

/-- The exponential layout denotes the size of the number. -/
theorem value_exponential (short : x.adjusted.natAbs + 2 < 10 ^ 15) :
    (exponential x short).value = |x.value| := by
  have positive : 0 < x.digits := digitCount_pos _
  have front : x.adjusted = x.exponent + x.digits - 1 := rfl
  have count : digitCount x.coefficient.natAbs = x.digits := rfl
  rw [exponential, value_ofRow, Decimal.abs_value, count, Option.getD_some]
  congr 2
  omega

/-- The engineering layout denotes the size of the number. -/
theorem value_engineering (short : x.adjusted.natAbs + 2 < 10 ^ 15) :
    (engineering x short).value = |x.value| := by
  have positive : 0 < x.digits := digitCount_pos _
  have front : x.adjusted = x.exponent + x.digits - 1 := rfl
  have count : digitCount x.coefficient.natAbs = x.digits := rfl
  have exponent (e : ℤ) : (if e = 0 then none else some e).getD 0 = e := by
    split
    · rename_i zero
      exact zero.symm
    · rfl
  rw [engineering, value_ofRow, Decimal.abs_value, count, exponent]
  congr 2
  omega

end WrittenNumeral

namespace NumberFormat

variable {x : Decimal}

/-- The format writes the plain layout of the number. -/
theorem plain_eq (f : NumberFormat) (x : Decimal) :
    f.plain x = (WrittenNumeral.plain x).chars f := by
  have positive : 0 < x.digits := digitCount_pos _
  have front : x.adjusted = x.exponent + x.digits - 1 := rfl
  have length : (digitChars x.coefficient.natAbs).length = x.digits := length_digitChars _
  rw [WrittenNumeral.plain, WrittenNumeral.chars, WrittenNumeral.mantissa_ofRow]
  refine Eq.trans ?_ (List.append_nil _).symm
  unfold NumberFormat.plain digitRow
  dsimp only
  split
  · rename_i whole
    have none : (-x.adjusted).toNat = 0 := by omega
    rw [none, List.replicate_zero, List.nil_append, separate, if_pos]
    rw [List.length_append, List.length_replicate, length]
    omega
  · rename_i negative
    have short : x.exponent.toNat = 0 := by omega
    rw [short, List.replicate_zero, List.append_nil]
    split
    · rename_i both
      have none : (-x.adjusted).toNat = 0 := by omega
      have count : (x.adjusted + 1).toNat = x.adjusted.toNat + 1 := by omega
      rw [none, List.replicate_zero, List.nil_append, count]
    · rename_i small
      have count : x.adjusted.toNat + 1 = 1 := by omega
      have zeros : (-x.adjusted).toNat = (-x.adjusted - 1).toNat + 1 := by omega
      rw [count, zeros, List.replicate_succ, List.cons_append, separate, if_neg]
      · rfl
      · rw [List.length_cons, List.length_append, length]
        omega

/-- The format writes the exponential layout of the number. -/
theorem exponential_eq (f : NumberFormat) (short : x.adjusted.natAbs + 2 < 10 ^ 15) :
    f.exponential x = (WrittenNumeral.exponential x short).chars f := by
  rw [WrittenNumeral.exponential, WrittenNumeral.chars, WrittenNumeral.mantissa_ofRow, digitRow,
    List.replicate_zero, List.append_nil, List.nil_append]
  rfl

/-- The format writes the engineering layout of the number. -/
theorem engineering_eq (f : NumberFormat) (short : x.adjusted.natAbs + 2 < 10 ^ 15) :
    f.engineering x = (WrittenNumeral.engineering x short).chars f := by
  have length : (digitChars x.coefficient.natAbs).length = x.digits := length_digitChars _
  rw [WrittenNumeral.engineering, WrittenNumeral.chars, WrittenNumeral.mantissa_ofRow, digitRow,
    List.replicate_zero, List.nil_append, ← length]
  unfold NumberFormat.engineering
  dsimp only
  congr 1
  simp only [WrittenNumeral.suffix, WrittenNumeral.ofRow]
  split <;> rfl

/-- The numeral that the format writes a number as. -/
def numeral (f : NumberFormat) (x : Decimal) (short : x.adjusted.natAbs + 2 < 10 ^ 15) :
    WrittenNumeral :=
  match f.style with
  | .general =>
    if smallestPlain ≤ x.adjusted ∧ x.adjusted < f.digits then .plain x else .exponential x short
  | .scientific =>
    if x.exponent ≤ 0 ∧ smallestPlain ≤ x.adjusted then .plain x else .exponential x short
  | .engineering =>
    if x.exponent ≤ 0 ∧ smallestPlain ≤ x.adjusted then .plain x else .engineering x short

/-- Whichever layout a format chooses, it denotes the size of the number. -/
theorem value_numeral (f : NumberFormat) (short : x.adjusted.natAbs + 2 < 10 ^ 15) :
    (f.numeral x short).value = |x.value| := by
  have plain := WrittenNumeral.value_plain x
  have exponential := WrittenNumeral.value_exponential short
  have engineering := WrittenNumeral.value_engineering short
  unfold numeral
  cases f.style <;> dsimp only <;> split <;> assumption

/-- A format writes a magnitude as the numeral it chooses. -/
theorem magnitude_eq (f : NumberFormat) (short : x.adjusted.natAbs + 2 < 10 ^ 15) :
    f.magnitude x = (f.numeral x short).chars f := by
  have plain := plain_eq f x
  have exponential := exponential_eq f short
  have engineering := engineering_eq f short
  unfold magnitude numeral
  cases f.style <;> dsimp only <;> split <;> assumption

theorem magnitude_zero (f : NumberFormat) : f.magnitude .zero = ['0'] := by
  have digit : (0 : ℤ) < f.digits := by exact_mod_cast f.one_le_digits
  have general : smallestPlain ≤ Decimal.zero.adjusted ∧ Decimal.zero.adjusted < f.digits :=
    ⟨by decide, digit⟩
  have fraction : Decimal.zero.exponent ≤ 0 ∧ smallestPlain ≤ Decimal.zero.adjusted := by decide
  have zero : f.plain .zero = ['0'] := rfl
  unfold magnitude
  dsimp only
  rw [if_pos general, if_pos fraction, if_pos fraction, zero]
  cases f.style <;> rfl

/-- The layout of a number is the numeral of its magnitude, after a minus if it is negative. -/
theorem layout_eq_chars (f : NumberFormat) (short : x.adjusted.natAbs + 2 < 10 ^ 15) :
    f.layout x = if x.isNegative then '-' :: (f.numeral x short).chars f
      else (f.numeral x short).chars f := by
  rw [← magnitude_eq f short, layout]
  split
  · rename_i vanishes
    rw [Decimal.isZero_iff.1 vanishes, magnitude_zero]
    rfl
  · rfl

/-- A number is written as a minus, if it is below zero, and a numeral of its size. -/
theorem layout_eq (f : NumberFormat) (short : x.adjusted.natAbs + 2 < 10 ^ 15) :
    ∃ w : WrittenNumeral, w.value = |x.value| ∧
      f.layout x = if x.isNegative then '-' :: w.chars f else w.chars f :=
  ⟨f.numeral x short, value_numeral f short, layout_eq_chars f short⟩

end NumberFormat

end Calculator
