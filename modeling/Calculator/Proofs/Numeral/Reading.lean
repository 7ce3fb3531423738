import Calculator.Proofs.Numeral.Grammar
import Calculator.Proofs.Real.Working

/-!
# What text is read as

The text of a number is read as the rounded value of the number, or refused with the bound that the
rounded value exceeds. All other text is refused for its form, with the exception of a zero mantissa
before a letter that no exponent follows, which is read as zero. The numerals of a layout are text of
numbers once their commas are points, so they are read as what they denote.
-/

namespace Calculator

open Precision (Answers exponentBound working ofNumeral_malformed ofNumeral_zero ofNumeral_eq)

variable {p : Precision} {d : ℕ} {q : ℚ}

/-! ## Numerals -/

/-- Zero is answered by zero alone. -/
theorem Precision.answers_zero : Answers d 0 (.ok .zero) :=
  .value .zero (by rw [Decimal.value_zero, nearest_zero]) (.inl nearest_zero)

theorem Precision.Answers.ne_conversionSyntax {answer : Except Condition Decimal}
    (h : Answers d q answer) : answer ≠ .error .conversionSyntax := by
  rintro rfl
  cases h

/-- A result whose leading digit is beyond twice the bounds is refused as it would be when it is
rounded. -/
theorem Precision.Answers.of_beyond (digit : 0 < d) (nonzero : q ≠ 0)
    (beyond : Int.log 10 |q| > 2 * exponentBound ∨ Int.log 10 |q| < -2 * exponentBound) :
    Answers d q (.error (.ofSign (decide (Int.log 10 |q| < 0)))) := by
  have bound : exponentBound = 999999 := rfl
  rcases beyond with large | small
  · rw [decide_eq_false (by omega)]
    exact .of_large digit (by omega)
  · rw [decide_eq_true (by omega)]
    exact .of_small digit nonzero (by omega)

namespace NumeralText

variable {n : NumeralText}

theorem value_eq_zero (vanishes : digitsValue n.mantissa.digits = 0) : n.value = 0 := by
  have coefficient : n.mantissa.coefficient = 0 := by
    rw [Mantissa.coefficient, vanishes, Sign.apply_eq_zero_iff, Nat.cast_zero]
  rw [value_eq, coefficient, Int.cast_zero, zero_mul]

theorem writtenExponent_numeral (n : NumeralText) :
    (n.mantissa.numeral n.tail).writtenExponent =
      if 15 < (n.exponent.elim [] fun e => e.digits.dropWhile (· == '0')).length then
        .error (.ofSign (n.exponent.elim false (·.sign.isMinus)))
      else .ok n.scale := by
  unfold tail scale
  cases n.exponent with
  | none => rfl
  | some e => exact e.exponentValue_signed

/-- A written exponent of more than fifteen digits after its zeros is large. -/
theorem scale_of_long {e : Exponent} (long : 15 < (e.digits.dropWhile (· == '0')).length) :
    if e.sign.isMinus then e.value ≤ -10 ^ 15 else 10 ^ 15 ≤ e.value := by
  have large : (10 ^ 15 : ℕ) ≤ digitsValue e.digits :=
    ten_pow_le_of_length_dropWhile_zero e.digits_isDigit long
  unfold Exponent.value Sign.apply
  split <;> omega

/-- The exponent has no more than fifteen digits after its zeros, or the mantissa is not long enough
to make up for a longer one. -/
def Moderate (n : NumeralText) : Prop :=
  (∀ e ∈ n.exponent, (e.digits.dropWhile (· == '0')).length ≤ 15) ∨
    n.mantissa.digits.length < 10 ^ 14

/-- An exponent that is too long to be read is too large for the mantissa to bring it back. -/
theorem answers_of_long {e : Exponent} (digit : 0 < p.digits)
    (nonzero : digitsValue n.mantissa.digits ≠ 0) (moderate : n.Moderate)
    (written : n.exponent = some e) (long : 15 < (e.digits.dropWhile (· == '0')).length) :
    Answers p.digits n.value (.error (.ofSign e.sign.isMinus)) := by
  have bound : exponentBound = 999999 := rfl
  have few : n.mantissa.digits.length < 10 ^ 14 := by
    rcases moderate with short | few
    · exact absurd (short e written) (Nat.not_le.2 long)
    · exact few
  have log := log_value nonzero
  have places := n.mantissa.places_le
  have stripped := (List.dropWhile_sublist (· == '0') (l := n.mantissa.digits)).length_le
  have scale : n.scale = e.value := by rw [NumeralText.scale, written, Option.elim_some]
  have size := scale_of_long long
  cases minus : e.sign.isMinus with
  | true =>
    rw [minus, if_pos rfl] at size
    exact .of_small digit (value_ne_zero nonzero) (by omega)
  | false =>
    rw [minus, if_neg (by decide)] at size
    exact .of_large digit (by omega)

/-- The text of a number is read as the number, unless both its parts are very long. -/
theorem ofNumeral_answers (digit : 0 < p.digits) (moderate : n.Moderate) :
    Answers p.digits n.value (p.ofNumeral (n.mantissa.numeral n.tail)) := by
  have wellFormed := n.mantissa.isWellFormed_numeral n.tail
  by_cases vanishes : digitsValue n.mantissa.digits = 0
  · rw [ofNumeral_zero wellFormed vanishes, value_eq_zero vanishes]
    exact Precision.answers_zero
  · rw [ofNumeral_eq wellFormed vanishes, writtenExponent_numeral]
    split
    · rename_i long
      cases written : n.exponent with
      | none => simp [written] at long
      | some e =>
        rw [written] at long
        exact answers_of_long digit vanishes moderate written long
    · dsimp only [Except.bind]
      have adjusted : n.scale - ((n.mantissa.numeral n.tail).fraction.length : ℤ) +
          (((n.mantissa.numeral n.tail).digits.dropWhile (· == '0')).length : ℤ) - 1 =
          Int.log 10 |n.value| := (log_value vanishes).symm
      rw [adjusted]
      split
      · rename_i beyond
        exact .of_beyond digit (value_ne_zero vanishes) beyond
      · rw [value_eq]
        exact Precision.roundParts_answers digit

/-- Text that is a numeral between blanks is read as the number. -/
theorem ofText_answers {text : String} (digit : 0 < p.digits)
    (trimmed : Text.trim text.toList = n.chars) (moderate : n.Moderate) :
    Answers p.digits n.value (p.ofText text) := by
  rw [Precision.ofText, trimmed, ofChars_chars]
  exact ofNumeral_answers digit moderate

/-- A numeral is written with fifteen characters. -/
theorem mem_chars {c : Char} (mem : c ∈ n.chars) : c ∈ "0123456789.+-eE".toList := by
  have digit {d : Char} (h : d.isDigit) : d ∈ "0123456789.+-eE".toList :=
    of_isDigit (fun d => decide (d ∈ "0123456789.+-eE".toList)) (by decide) h |> of_decide_eq_true
  have sign {s : Sign} {d : Char} (h : d ∈ s.chars) : d ∈ "0123456789.+-eE".toList := by
    cases s with
    | none => cases h
    | plus | minus => rw [List.mem_singleton.1 h]; decide
  rcases List.mem_append.1 mem with mem | mem
  · rcases List.mem_append.1 mem with mem | mem
    · exact sign mem
    · rcases Mantissa.mem_unsigned mem with h | rfl
      · exact digit h
      · decide
  · cases written : n.exponent with
    | none => rw [written] at mem; cases mem
    | some e =>
      rw [written] at mem
      rcases List.mem_cons.1 mem with rfl | mem
      · cases e.letter <;> decide
      · rcases List.mem_append.1 mem with mem | mem
        · exact sign mem
        · exact digit (e.digits_isDigit c mem)

theorem map_chars_eq_self :
    n.chars.map (fun c => if c = ',' then '.' else c) = n.chars := by
  have plain : ("0123456789.+-eE".toList.all fun c => c != ',') = true := by decide
  have keep : ∀ c ∈ n.chars, (if c = ',' then '.' else c) = c := fun c mem =>
    if_neg (bne_iff_ne.1 (List.all_eq_true.1 plain c (mem_chars mem)))
  exact (List.map_congr_left keep).trans (List.map_id' _)

/-- Text that is a numeral once its commas are points is read as the working value that the numeral
denotes. -/
theorem parse_of_map {x : Decimal} {cs : List Char} (hx : x.IsWorking) (value : n.value = x.value)
    (written : cs.map (fun c => if c = ',' then '.' else c) = n.chars) (moderate : n.Moderate) :
    Decimal.parse (String.ofList cs) = .ok x := by
  have solid : ("0123456789.+-eE".toList.all fun c => !Text.isBlank c) = true := by decide
  have trimmed : Text.trim
      ((String.ofList cs).map fun c => if c = ',' then '.' else c).toList = n.chars := by
    rw [String.toList_map, String.toList_ofList, written]
    exact trim_eq_self fun c mem => by simpa using List.all_eq_true.1 solid c (mem_chars mem)
  have answer := ofText_answers Decimal.working_digits_pos trimmed moderate
  rw [value] at answer
  rw [Decimal.parse, answer.unique Decimal.working_digits_pos hx.answers]
  rfl

end NumeralText

/-! ## Numerals of a layout -/

namespace WrittenNumeral

variable {f : NumberFormat} {w : WrittenNumeral}

theorem getD_fraction (w : WrittenNumeral) :
    (if w.fraction = [] then none else some w.fraction).getD [] = w.fraction := by
  split
  · rename_i empty
    exact empty.symm
  · rfl

/-- The text of the numeral with a point as its separator. -/
def text (f : NumberFormat) (w : WrittenNumeral) : NumeralText where
  mantissa :=
    { sign := .none
      whole := w.whole
      fraction := if w.fraction = [] then none else some w.fraction
      whole_digits := w.whole_digits
      fraction_digits := by rw [getD_fraction]; exact w.fraction_digits
      some_digit := List.append_ne_nil_of_left_ne_nil w.whole_ne_nil _ }
  exponent := w.exponent.map (.ofInt f.exponentCase .plus)

theorem chars_text : (w.text f).chars = w.chars { f with separator := .point } := by
  have suffix : (w.text f).exponent.elim [] Exponent.chars = w.suffix f := by
    unfold text WrittenNumeral.suffix
    cases w.exponent with
    | none => rfl
    | some e =>
      simp only [Option.map_some, Option.elim_some, Exponent.chars, Exponent.signed,
        Exponent.ofInt, Sign.before, NumberFormat.exponentSuffix]
      split <;> rfl
  have mantissa : (w.text f).mantissa.chars = w.mantissa '.' := by
    unfold WrittenNumeral.mantissa
    change [] ++ (w.whole ++ (if w.fraction = [] then none else some w.fraction).elim [] _) = _
    split <;> rfl
  rw [NumeralText.chars, suffix, mantissa]
  rfl

theorem value_text : (w.text f).value = w.value := by
  have digits : (w.text f).mantissa.digits = w.digits :=
    congrArg (w.whole ++ ·) w.getD_fraction
  have scale : (w.text f).scale = w.exponent.getD 0 := by
    unfold NumeralText.scale text
    cases w.exponent with
    | none => rfl
    | some e => exact Exponent.value_ofInt rfl e
  have places : (w.text f).mantissa.places = w.fraction.length :=
    congrArg List.length w.getD_fraction
  have coefficient : (w.text f).mantissa.coefficient = digitsValue w.digits := by
    rw [Mantissa.coefficient, digits]
    rfl
  rw [NumeralText.value_eq, coefficient, scale, places, value, Int.cast_natCast]

/-- A point takes the place of a comma. -/
theorem map_chars : (w.chars f).map (fun c => if c = ',' then '.' else c) = (w.text f).chars := by
  have glyph : (if f.separator.glyph = ',' then '.' else f.separator.glyph) = '.' := by
    cases f.separator <;> rfl
  have same : (w.chars f).map (fun c => if c = ',' then '.' else c) =
      (w.chars { f with separator := .point }).map (fun c => if c = ',' then '.' else c) := by
    unfold chars mantissa
    split
    · rfl
    · simp only [List.map_append, List.map_cons, glyph]
      rfl
  rw [same, ← chars_text, NumeralText.map_chars_eq_self]

/-- What a layout writes is read as the working value that it denotes. -/
theorem parse_chars {x : Decimal} (hx : x.IsWorking) (value : w.value = x.value) :
    Decimal.parse (String.ofList (w.chars f)) = .ok x := by
  refine NumeralText.parse_of_map hx (value_text.trans value) map_chars (.inl ?_)
  intro e written
  obtain ⟨n, exponent, rfl⟩ := Option.map_eq_some_iff.1 written
  have few : (digitChars n.natAbs).length ≤ 15 :=
    (length_digitChars_le_iff (by decide)).2 (w.exponent_short n exponent)
  exact (List.dropWhile_sublist _).length_le.trans few

end WrittenNumeral

/-! ## Any text -/

theorem length_trim_le (cs : List Char) : (Text.trim cs).length ≤ cs.length := by
  unfold Text.trim Text.trimEnd Text.trimStart
  rw [List.length_reverse]
  refine (List.dropWhile_sublist _).length_le.trans ?_
  rw [List.length_reverse]
  exact (List.dropWhile_sublist _).length_le

/-- The text is a zero mantissa and something after a letter. -/
def ZeroBeforeLetter (cs : List Char) : Prop :=
  ∃ (m : Mantissa) (e : Char) (rest : List Char), m.value = 0 ∧ isExponentMark e ∧
    cs = m.chars ++ e :: rest

theorem Mantissa.value_eq_zero_iff {m : Mantissa} : m.value = 0 ↔ digitsValue m.digits = 0 := by
  rw [value, mul_eq_zero, or_iff_left (Decimal.ten_zpow_pos _).ne', Int.cast_eq_zero, coefficient,
    Sign.apply_eq_zero_iff, Int.natCast_eq_zero]

/-- What follows the letter after a zero does not count. -/
theorem ofText_of_zeroBeforeLetter {text : String}
    (h : ZeroBeforeLetter (Text.trim text.toList)) : p.ofText text = .ok .zero := by
  obtain ⟨m, e, rest, vanishes, mark, cut⟩ := h
  rw [Precision.ofText, cut, m.ofChars_chars_mark mark]
  exact ofNumeral_zero (m.isWellFormed_numeral _) (Mantissa.value_eq_zero_iff.1 vanishes)

/-- Text of any other form is refused for it. -/
theorem ofText_of_other {text : String} (other : ∀ n : NumeralText, Text.trim text.toList ≠ n.chars)
    (nonzero : ¬ZeroBeforeLetter (Text.trim text.toList)) :
    p.ofText text = .error .conversionSyntax := by
  unfold Precision.ofText
  generalize Text.trim text.toList = cs at other nonzero
  by_cases wellFormed : (Numeral.ofChars cs).isWellFormed = true
  · obtain ⟨m, rfl | ⟨e, rest, mark, rfl⟩⟩ := exists_mantissa wellFormed
    · exact absurd (List.append_nil _).symm (other ⟨m, none⟩)
    · have value : digitsValue m.digits ≠ 0 := fun vanishes =>
        nonzero ⟨m, e, rest, Mantissa.value_eq_zero_iff.2 vanishes, mark, rfl⟩
      have refused : exponentValue rest = .error .conversionSyntax := by
        by_contra accepted
        obtain ⟨letter, rfl⟩ := ExponentCase.exists_letter mark
        obtain ⟨written, rfl, rfl⟩ := exists_exponent letter accepted
        exact other ⟨m, some written⟩ rfl
      have exponent : (m.numeral (some rest)).writtenExponent = .error .conversionSyntax := refused
      rw [m.ofChars_chars_mark mark, ofNumeral_eq (m.isWellFormed_numeral _) value, exponent]
      rfl
  · exact ofNumeral_malformed (Bool.eq_false_iff.2 wellFormed)

/-- Text shorter than `10 ^ 14` characters is refused for its form exactly when it is not the text
of a number and not a zero before a letter. The text of a number is read as the number rounded to
the digits of the precision, with the bound that the rounded number exceeds as the only failure. A
zero before a letter is read as zero, whatever follows. -/
theorem ofText_reads (p : Precision) (text : String) (digit : 0 < p.digits)
    (short : text.length < 10 ^ 14) :
    (p.ofText text = .error .conversionSyntax ↔
      (∀ n : NumeralText, Text.trim text.toList ≠ n.chars) ∧
        ¬ZeroBeforeLetter (Text.trim text.toList)) ∧
    (∀ n : NumeralText, Text.trim text.toList = n.chars →
      ∀ answer, p.ofText text = answer ↔ Answers p.digits n.value answer) ∧
    (ZeroBeforeLetter (Text.trim text.toList) → p.ofText text = .ok .zero) := by
  have numeral : ∀ n : NumeralText, Text.trim text.toList = n.chars →
      Answers p.digits n.value (p.ofText text) := by
    intro n trimmed
    have length := length_trim_le text.toList
    have digits := n.mantissa.length_digits_le
    rw [trimmed, NumeralText.chars, List.length_append, String.length_toList] at length
    exact NumeralText.ofText_answers digit trimmed (.inr (by omega))
  refine ⟨⟨fun refused => ⟨?_, ?_⟩, fun ⟨other, nonzero⟩ => ofText_of_other other nonzero⟩, ?_,
    ofText_of_zeroBeforeLetter⟩
  · intro n trimmed
    exact (numeral n trimmed).ne_conversionSyntax refused
  · intro zero
    rw [ofText_of_zeroBeforeLetter zero] at refused
    cases refused
  · intro n trimmed answer
    constructor
    · rintro rfl
      exact numeral n trimmed
    · exact (numeral n trimmed).unique digit

/-- A numeral with all its parts, between blanks. -/
theorem ofText_signed :
    0 < working.digits ∧ " -12.5e3 ".length < 10 ^ 14 ∧
      working.ofText " -12.5e3 " = .ok (-12500) := by
  let mantissa : Mantissa := ⟨.minus, ['1', '2'], some ['5'], List.all_eq_true.1 rfl,
    List.all_eq_true.1 rfl, List.cons_ne_nil _ _⟩
  let exponent : Exponent := ⟨.lower, .none, ['3'], List.all_eq_true.1 rfl, List.cons_ne_nil _ _⟩
  let n : NumeralText := ⟨mantissa, some exponent⟩
  have value : (-12500 : Decimal).value = n.value := by
    have whole : (-12500 : Decimal) = ⟨-125, 2, .inl (by decide)⟩ := rfl
    have coefficient : n.mantissa.coefficient = -125 := rfl
    have scale : n.scale - n.mantissa.places = 2 := rfl
    rw [NumeralText.value_eq, coefficient, scale, whole, Decimal.value]
  have answer : Answers working.digits n.value (.ok (-12500)) :=
    value ▸ Decimal.IsWorking.answers (by decide)
  refine ⟨by decide, by decide, ?_⟩
  exact ((ofText_reads working " -12.5e3 " (by decide) (by decide)).2.1 n (by decide) _).2 answer

/-- A zero before a letter that no exponent follows is not the text of a number, and is read as
zero. -/
theorem ofText_zeroBeforeLetter :
    working.ofText "0e" = .ok .zero ∧ ∀ n : NumeralText, Text.trim "0e".toList ≠ n.chars := by
  refine ⟨by decide, fun n text => ?_⟩
  have read := n.ofChars_chars
  rw [← text] at read
  have tail : n.tail = some [] := (congrArg Numeral.exponent read).symm
  obtain ⟨e, -, signed⟩ := Option.map_eq_some_iff.1 tail
  exact e.digits_ne_nil (List.append_eq_nil_iff.1 signed).2

end Calculator
