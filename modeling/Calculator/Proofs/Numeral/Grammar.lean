import Calculator.Proofs.Numeral.Parse

/-!
# The grammar of numerals

The text of a number follows the grammar

    numeral  := mantissa exponent?
    mantissa := sign? digits ('.' digits)?
    exponent := ('e' | 'E') sign? digits

where a mantissa has at least one digit, before the point or after it, and so has an exponent. Text
of this form is read as the rounded value of the number that it denotes; other text is refused, but
for one exception: after a mantissa that is zero, what follows the letter is not looked at.
-/

namespace Calculator

/-! ## The forms -/

/-- What stands in front of a row of digits. -/
inductive Sign where
  | none
  | plus
  | minus
  deriving DecidableEq

namespace Sign

/-- The sign as it is written. -/
def chars : Sign → List Char
  | none => []
  | plus => ['+']
  | minus => ['-']

/-- The sign is a minus. -/
def isMinus : Sign → Bool
  | minus => true
  | _ => false

/-- The number with this sign. -/
def apply (s : Sign) (n : Int) : Int := if s.isMinus then -n else n

/-- The sign of a number below zero, and of others. -/
def before (positive : Sign) (n : Int) : Sign := if n < 0 then minus else positive

/-- The sign in front of a number gives the number back from its size. -/
theorem apply_before {positive : Sign} (plain : positive.isMinus = false) (n : Int) :
    (before positive n).apply n.natAbs = n := by
  unfold before apply
  split
  · change -(n.natAbs : Int) = n
    omega
  · rw [plain, if_neg (by decide)]
    omega

/-- A sign leaves the size as it is. -/
theorem apply_natAbs (s : Sign) (n : Nat) : (s.apply n).natAbs = n := by
  unfold apply
  split <;> omega

theorem apply_eq_zero_iff {s : Sign} {n : Int} : s.apply n = 0 ↔ n = 0 := by
  unfold apply
  split <;> omega

end Sign

/-- A mantissa as it is written. -/
structure Mantissa where
  sign : Sign
  whole : List Char
  fraction : Option (List Char)
  whole_digits : ∀ c ∈ whole, c.isDigit
  fraction_digits : ∀ c ∈ fraction.getD [], c.isDigit
  some_digit : whole ++ fraction.getD [] ≠ []

namespace Mantissa

/-- The digits on both sides of the point. -/
def digits (m : Mantissa) : List Char := m.whole ++ m.fraction.getD []

/-- The number of digits after the point. -/
def places (m : Mantissa) : Nat := (m.fraction.getD []).length

/-- The mantissa without its sign. -/
def unsigned (m : Mantissa) : List Char := m.whole ++ m.fraction.elim [] ('.' :: ·)

/-- The mantissa with its sign. -/
def chars (m : Mantissa) : List Char := m.sign.chars ++ m.unsigned

/-- The number that the digits denote with the sign. -/
def coefficient (m : Mantissa) : Int := m.sign.apply (digitsValue m.digits)

/-- The number that the mantissa denotes. -/
def value (m : Mantissa) : ℚ := m.coefficient * 10 ^ (-m.places : ℤ)

end Mantissa

/-- An exponent as it is written. -/
structure Exponent where
  letter : ExponentCase
  sign : Sign
  digits : List Char
  digits_isDigit : ∀ c ∈ digits, c.isDigit
  digits_ne_nil : digits ≠ []

namespace Exponent

/-- The exponent without its letter. -/
def signed (e : Exponent) : List Char := e.sign.chars ++ e.digits

/-- The exponent with its letter. -/
def chars (e : Exponent) : List Char := e.letter.letter :: e.signed

/-- The integer that the exponent denotes. -/
def value (e : Exponent) : Int := e.sign.apply (digitsValue e.digits)

/-- An integer as it is written behind a letter, with a sign of its own if it is not negative. -/
def ofInt (letter : ExponentCase) (positive : Sign) (e : Int) : Exponent where
  letter
  sign := .before positive e
  digits := digitChars e.natAbs
  digits_isDigit _ := isDigit_of_mem_digitChars
  digits_ne_nil := digitChars_ne_nil _

/-- An exponent that is written for an integer denotes it. -/
theorem value_ofInt {letter : ExponentCase} {positive : Sign} (plain : positive.isMinus = false)
    (e : Int) : (ofInt letter positive e).value = e := by
  change Sign.apply _ (digitsValue (digitChars e.natAbs)) = e
  rw [digitsValue_digitChars]
  exact Sign.apply_before plain e

end Exponent

/-- The text of a number. -/
structure NumeralText where
  mantissa : Mantissa
  exponent : Option Exponent

namespace NumeralText

/-- The mantissa, and the exponent if there is one. -/
def chars (n : NumeralText) : List Char := n.mantissa.chars ++ n.exponent.elim [] Exponent.chars

/-- The exponent that the number is written with; none stands for zero. -/
def scale (n : NumeralText) : Int := n.exponent.elim 0 Exponent.value

/-- The number that the text denotes. -/
def value (n : NumeralText) : ℚ := n.mantissa.value * 10 ^ n.scale

end NumeralText

/-! ## Taking text apart -/

theorem Sign.takeSign_chars (s : Sign) {cs : List Char}
    (plain : ∀ c ∈ cs.head?, c ≠ '+' ∧ c ≠ '-') : takeSign (s.chars ++ cs) = (s.isMinus, cs) := by
  cases s with
  | plus | minus => rfl
  | none =>
    change takeSign cs = (false, cs)
    unfold takeSign
    split
    · exact absurd rfl (plain '-' rfl).2
    · exact absurd rfl (plain '+' rfl).1
    · rfl

/-- Every text has a sign in front, which may be none. -/
theorem exists_sign (cs : List Char) :
    ∃ s : Sign, cs = s.chars ++ (takeSign cs).2 ∧ (takeSign cs).1 = s.isMinus := by
  unfold takeSign
  split
  · exact ⟨.minus, rfl, rfl⟩
  · exact ⟨.plus, rfl, rfl⟩
  · exact ⟨.none, rfl, rfl⟩

/-- A mark of an exponent is one of its two letters. -/
theorem ExponentCase.exists_letter {c : Char} (mark : isExponentMark c) :
    ∃ letter : ExponentCase, c = letter.letter := by
  simp only [isExponentMark, Bool.or_eq_true, beq_iff_eq] at mark
  rcases mark with rfl | rfl
  · exact ⟨.lower, rfl⟩
  · exact ⟨.upper, rfl⟩

theorem ne_sign_of_isDigit {c : Char} (digit : c.isDigit) : c ≠ '+' ∧ c ≠ '-' := by
  have each := of_isDigit (fun d => d != '+' && d != '-') (by rfl) digit
  simpa using each

namespace Mantissa

variable {m : Mantissa}

/-- Without its sign a mantissa consists of digits and a point. -/
theorem mem_unsigned {c : Char} (mem : c ∈ m.unsigned) : c.isDigit ∨ c = '.' := by
  rcases List.mem_append.1 mem with mem | mem
  · exact .inl (m.whole_digits c mem)
  · cases fraction : m.fraction with
    | none => simp [fraction] at mem
    | some ds =>
      simp only [fraction, Option.elim_some, List.mem_cons] at mem
      rcases mem with rfl | mem
      · exact .inr rfl
      · exact .inl (m.fraction_digits c (by rw [fraction]; exact mem))

theorem unsigned_ne_nil : m.unsigned ≠ [] := by
  have some := m.some_digit
  unfold unsigned
  cases fraction : m.fraction with
  | none => simpa [fraction] using some
  | some ds => simp

/-- The digits of a mantissa are digits. -/
theorem digits_isDigit (m : Mantissa) : ∀ c ∈ m.digits, c.isDigit := by
  intro c mem
  rcases List.mem_append.1 mem with mem | mem
  · exact m.whole_digits c mem
  · exact m.fraction_digits c mem

/-- A mantissa has no more digits than characters. -/
theorem length_digits_le : m.digits.length ≤ m.chars.length := by
  unfold digits chars unsigned
  simp only [List.length_append]
  cases m.fraction with
  | none => simp
  | some ds => simp; omega

theorem places_le : m.places ≤ m.digits.length := by
  simp [digits, places]

/-- A mantissa as it is read, with what follows a letter after it. -/
def numeral (m : Mantissa) (exponent : Option (List Char)) : Numeral where
  negative := m.sign.isMinus
  whole := m.whole
  fraction := m.fraction.getD []
  exponent

/-- A mantissa is read in the form of a numeral, whatever follows its letter. -/
theorem isWellFormed_numeral (m : Mantissa) (exponent : Option (List Char)) :
    (m.numeral exponent).isWellFormed = true := by
  have some : m.digits.isEmpty = false := List.isEmpty_eq_false_iff.2 m.some_digit
  have digits : allDigits m.digits = true := List.all_eq_true.2 m.digits_isDigit
  change (!m.digits.isEmpty && allDigits m.digits) = true
  rw [some, digits]
  rfl

/-- The mantissa is split at its point. -/
theorem splitAtFirst_unsigned (m : Mantissa) :
    splitAtFirst (· == '.') m.unsigned = (m.whole, m.fraction) := by
  have plain : ∀ c ∈ m.whole, (c == '.') = false := fun c mem =>
    ne_point_of_isDigit (m.whole_digits c mem)
  unfold unsigned
  cases m.fraction with
  | none => rw [Option.elim_none, List.append_nil, splitAtFirst_none plain]
  | some ds => exact splitAtFirst_some plain rfl

/-- No letter of an exponent is in a mantissa. -/
theorem not_isExponentMark_of_mem {c : Char} (mem : c ∈ m.unsigned) : isExponentMark c = false := by
  rcases mem_unsigned mem with digit | rfl
  · exact not_isExponentMark_of_isDigit digit
  · rfl

/-- Text that begins with a mantissa and does not go on with it is taken apart behind it. -/
theorem ofChars_append (tail : List Char) {exponent : Option (List Char)}
    (split : splitAtFirst isExponentMark (m.unsigned ++ tail) = (m.unsigned, exponent)) :
    Numeral.ofChars (m.chars ++ tail) = m.numeral exponent := by
  have plain : ∀ c ∈ (m.unsigned ++ tail).head?, c ≠ '+' ∧ c ≠ '-' := by
    intro c mem
    rw [List.head?_append_of_ne_nil _ m.unsigned_ne_nil] at mem
    rcases mem_unsigned (List.mem_of_mem_head? mem) with digit | rfl
    · exact ne_sign_of_isDigit digit
    · decide
  unfold Numeral.ofChars chars
  rw [List.append_assoc, Sign.takeSign_chars _ plain]
  simp only [split, splitAtFirst_unsigned]
  rfl

theorem ofChars_chars (m : Mantissa) : Numeral.ofChars m.chars = m.numeral none := by
  have split := splitAtFirst_none fun c mem => not_isExponentMark_of_mem (m := m) (c := c) mem
  have read : Numeral.ofChars (m.chars ++ []) = m.numeral none :=
    ofChars_append [] (by rwa [List.append_nil])
  rwa [List.append_nil] at read

/-- A letter ends the mantissa, and all that follows is the exponent. -/
theorem ofChars_chars_mark (m : Mantissa) {e : Char} (mark : isExponentMark e) (rest : List Char) :
    Numeral.ofChars (m.chars ++ e :: rest) = m.numeral (some rest) :=
  ofChars_append _ (splitAtFirst_some (fun _ mem => not_isExponentMark_of_mem mem) mark)

end Mantissa

/-- Whatever is well-formed is a mantissa, with a letter and something after it or without. -/
theorem exists_mantissa {cs : List Char} (wellFormed : (Numeral.ofChars cs).isWellFormed = true) :
    ∃ m : Mantissa, cs = m.chars ∨
      ∃ e rest, isExponentMark e ∧ cs = m.chars ++ e :: rest := by
  obtain ⟨s, signed, -⟩ := exists_sign cs
  simp only [Numeral.isWellFormed, Numeral.digits, Numeral.ofChars, Bool.and_eq_true,
    Bool.not_eq_true', List.isEmpty_eq_false_iff, allDigits, List.all_eq_true] at wellFormed
  obtain ⟨nonempty, digits⟩ := wellFormed
  generalize (takeSign cs).2 = unsigned at signed nonempty digits
  -- What the point divides is a mantissa, and the rest is what the letter cut off.
  have mantissa : ∃ m : Mantissa,
      m.sign = s ∧ m.unsigned = (splitAtFirst isExponentMark unsigned).1 := by
    generalize (splitAtFirst isExponentMark unsigned).1 = front at nonempty digits
    rcases splitAtFirst_cases (· == '.') front with whole | ⟨whole, point, fraction, split, dot, rfl⟩
    · rw [whole] at nonempty digits
      exact ⟨⟨s, front, none, fun c mem => digits c (by simpa using mem), by simp,
        by simpa using nonempty⟩, rfl, List.append_nil front⟩
    · rw [split] at nonempty digits
      obtain rfl := eq_of_beq dot
      exact ⟨⟨s, whole, some fraction, fun c mem => digits c (List.mem_append_left _ mem),
        fun c mem => digits c (List.mem_append_right _ mem), nonempty⟩, rfl, rfl⟩
  obtain ⟨m, rfl, front⟩ := mantissa
  refine ⟨m, ?_⟩
  rcases splitAtFirst_cases isExponentMark unsigned with whole | ⟨ds, e, rest, split, mark, cut⟩
  · rw [whole] at front
    exact .inl (by rw [signed, Mantissa.chars, front])
  · rw [split] at front
    exact .inr ⟨e, rest, mark, by rw [signed, cut, Mantissa.chars, front, List.append_assoc]⟩

/-! ## Exponents -/

namespace Exponent

variable {e : Exponent}

/-- An exponent is read unless it has more than fifteen digits after its zeros. -/
theorem exponentValue_signed (e : Exponent) :
    exponentValue e.signed =
      if 15 < (e.digits.dropWhile (· == '0')).length then .error (.ofSign e.sign.isMinus)
      else .ok e.value := by
  have plain : ∀ c ∈ e.digits.head?, c ≠ '+' ∧ c ≠ '-' := fun c mem =>
    ne_sign_of_isDigit (e.digits_isDigit c (List.mem_of_mem_head? mem))
  have digits : allDigits e.digits = true := List.all_eq_true.2 e.digits_isDigit
  have some : e.digits.isEmpty = false := List.isEmpty_eq_false_iff.2 e.digits_ne_nil
  unfold exponentValue signed
  simp only [Sign.takeSign_chars _ plain, digits, some, Bool.not_true, Bool.or_false,
    Bool.false_eq_true, if_false, digitsValue_dropWhile_zero, gt_iff_lt]
  rfl

end Exponent

/-- What is not refused for its form is an exponent. -/
theorem exists_exponent {cs : List Char} (letter : ExponentCase)
    (accepted : exponentValue cs ≠ .error .conversionSyntax) :
    ∃ e : Exponent, e.letter = letter ∧ cs = e.signed := by
  obtain ⟨s, signed, -⟩ := exists_sign cs
  unfold exponentValue at accepted
  generalize takeSign cs = taken at signed accepted
  obtain ⟨negative, ds⟩ := taken
  dsimp only at signed accepted
  split at accepted
  · exact absurd rfl accepted
  · rename_i form
    simp only [Bool.or_eq_true, Bool.not_eq_true', not_or, Bool.not_eq_true, Bool.not_eq_false,
      List.isEmpty_eq_false_iff, allDigits, List.all_eq_true] at form
    exact ⟨⟨letter, s, ds, form.2, form.1⟩, rfl, signed⟩

/-! ## The text of a number as a whole -/

namespace NumeralText

variable {p : Precision} {n : NumeralText}

/-- The characters after the letter. -/
def tail (n : NumeralText) : Option (List Char) := n.exponent.map Exponent.signed

theorem ofChars_chars (n : NumeralText) : Numeral.ofChars n.chars = n.mantissa.numeral n.tail := by
  unfold chars tail
  cases n.exponent with
  | none =>
    rw [Option.elim_none, List.append_nil]
    exact n.mantissa.ofChars_chars
  | some e => exact n.mantissa.ofChars_chars_mark e.letter.isExponentMark_letter e.signed

/-- The value as an integer and a power of ten. -/
theorem value_eq (n : NumeralText) :
    n.value = n.mantissa.coefficient * 10 ^ (n.scale - n.mantissa.places) := by
  rw [value, Mantissa.value, mul_assoc, ← Decimal.ten_zpow_add, neg_add_eq_sub]

/-- The leading digit of a number that is not zero. -/
theorem log_value (nonzero : digitsValue n.mantissa.digits ≠ 0) :
    Int.log 10 |n.value| =
      n.scale - n.mantissa.places + (n.mantissa.digits.dropWhile (· == '0')).length - 1 := by
  have coefficient : n.mantissa.coefficient ≠ 0 := by
    rw [Mantissa.coefficient, ne_eq, Sign.apply_eq_zero_iff]
    exact_mod_cast nonzero
  rw [value_eq, Decimal.log_abs coefficient, Mantissa.coefficient, Sign.apply_natAbs,
    length_dropWhile_zero n.mantissa.digits_isDigit nonzero]

/-- A numeral with a digit other than zero does not denote zero. -/
theorem value_ne_zero (nonzero : digitsValue n.mantissa.digits ≠ 0) : n.value ≠ 0 := by
  rw [value_eq]
  refine mul_ne_zero ?_ (Decimal.ten_zpow_pos _).ne'
  rw [Int.cast_ne_zero, Mantissa.coefficient, ne_eq, Sign.apply_eq_zero_iff]
  exact_mod_cast nonzero

end NumeralText

end Calculator
