import Calculator.Proofs.Numeral.Digits
import Calculator.Proofs.Token.Case
import Calculator.Real.Arithmetic

/-!
# Letter case in numerals

The only letter of a numeral is the mark of its exponent, which is a mark in either case; every
other part is read when it is made of digits and refused when it is not. So a numeral denotes the
same number in small letters, or is refused for the same condition.
-/

namespace Calculator

open Text (small small_cons)

/-! ## Digits and signs -/

theorem allDigits_small (cs : List Char) : allDigits (small cs) = allDigits cs := by
  have same : Char.isDigit ∘ Char.toLower = Char.isDigit := funext Text.isDigit_toLower
  rw [allDigits, List.all_map, same, allDigits]

/-- Digits are no letters. -/
theorem small_eq_self {cs : List Char} (digits : allDigits cs) : small cs = cs := by
  have plain : ∀ c ∈ cs, c.toLower = id c := by
    intro c mem
    have digit := toNat_of_isDigit (List.all_eq_true.1 digits c mem)
    apply Text.toLower_eq_self
    intro capital
    have letter := Text.toNat_of_isUpper capital
    omega
  rw [small, List.map_congr_left plain, List.map_id]

/-- Signs have no case. -/
theorem takeSign_small (cs : List Char) :
    takeSign (small cs) = Prod.map id small (takeSign cs) := by
  fun_cases takeSign cs with
  | case1 => rfl
  | case2 => rfl
  | case3 other minus plus =>
    unfold takeSign
    split
    · rename_i found
      obtain ⟨rest, rfl, -⟩ := (@Text.small_eq_append ['-'] _ _ (by decide)).1 found
      exact absurd rfl (minus rest)
    · rename_i found
      obtain ⟨rest, rfl, -⟩ := (@Text.small_eq_append ['+'] _ _ (by decide)).1 found
      exact absurd rfl (plus rest)
    · rfl

/-- A mark that is blind to case splits at the same place. -/
theorem splitAtFirst_small {mark : Char → Bool} (blind : ∀ c : Char, mark c.toLower = mark c)
    (cs : List Char) :
    splitAtFirst mark (small cs) = Prod.map small (Option.map small) (splitAtFirst mark cs) := by
  have blind' : ∀ c : Char, (!mark c.toLower) = !mark c := fun c => by rw [blind]
  rw [splitAtFirst, Text.dropWhile_small blind', Text.takeWhile_small blind', splitAtFirst]
  cases cs.dropWhile (!mark ·) <;> rfl

/-! ## The parts of a numeral -/

namespace Numeral

/-- The numeral in small letters. -/
def foldCase (n : Numeral) : Numeral :=
  { n with
    whole := small n.whole
    fraction := small n.fraction
    exponent := n.exponent.map small }

/-- The parts of a numeral in small letters are those of the numeral, in small letters. -/
theorem ofChars_small (cs : List Char) : ofChars (small cs) = (ofChars cs).foldCase := by
  have point : ∀ c : Char, (c.toLower == '.') = (c == '.') :=
    Text.apply_toLower (· == '.') (by decide)
  rw [ofChars, takeSign_small, ofChars]
  obtain ⟨negative, rest⟩ := takeSign cs
  dsimp only [Prod.map, id]
  rw [splitAtFirst_small Token.isExponentMark_toLower]
  obtain ⟨mantissa, exponent⟩ := splitAtFirst isExponentMark rest
  dsimp only [Prod.map]
  rw [splitAtFirst_small point]
  obtain ⟨whole, fraction⟩ := splitAtFirst (· == '.') mantissa
  cases fraction <;> rfl

theorem digits_foldCase (n : Numeral) : n.foldCase.digits = small n.digits := by
  rw [digits, digits, small, List.map_append]
  rfl

theorem isWellFormed_foldCase (n : Numeral) : n.foldCase.isWellFormed = n.isWellFormed := by
  rw [isWellFormed, digits_foldCase, allDigits_small, List.isEmpty_map, isWellFormed]

end Numeral

/-- An exponent has no letters. -/
theorem exponentValue_small (cs : List Char) : exponentValue (small cs) = exponentValue cs := by
  rw [exponentValue, takeSign_small, exponentValue]
  obtain ⟨negative, ds⟩ := takeSign cs
  dsimp only [Prod.map, id]
  rw [List.isEmpty_map, allDigits_small]
  by_cases digits : allDigits ds = true
  · rw [small_eq_self digits]
  · rw [Bool.eq_false_iff.2 digits]
    simp

/-! ## The value of a numeral -/

/-- So the letters of a malformed numeral alone can differ, and it is refused either way. -/
theorem Precision.ofNumeral_foldCase (p : Precision) (n : Numeral) :
    p.ofNumeral n.foldCase = p.ofNumeral n := by
  rw [Precision.ofNumeral, n.isWellFormed_foldCase, n.digits_foldCase, Precision.ofNumeral]
  by_cases wellFormed : n.isWellFormed = true
  · have digits : small n.digits = n.digits := by
      rw [Numeral.isWellFormed, Bool.and_eq_true] at wellFormed
      exact small_eq_self wellFormed.2
    rw [digits]
    have places : n.foldCase.fraction.length = n.fraction.length := List.length_map _
    obtain ⟨negative, whole, fraction, exponent⟩ := n
    rw [places]
    cases exponent with
    | none => rfl
    | some cs =>
      simp only [Numeral.foldCase, Option.map_some, exponentValue_small]
      rfl
  · rw [Bool.eq_false_iff.2 wellFormed]
    rfl

/-- A numeral denotes the same number in small letters. -/
theorem Decimal.parse_foldCase (text : String) :
    Decimal.parse (Text.foldCase text) = Decimal.parse text := by
  let point (c : Char) : Char := if c = ',' then '.' else c
  have comma {c : Char} : c.toLower = ',' ↔ c = ',' := Text.toLower_eq_iff (by decide)
  have step : ∀ c : Char, point c.toLower = (point c).toLower := by
    intro c
    by_cases found : c = ','
    · rw [found]
      rfl
    · simp only [point, comma, found, if_false]
  have chars : (Text.small text.toList).map point = small (text.toList.map point) := by
    rw [small, small, List.map_map, List.map_map]
    exact List.map_congr_left fun c _ => step c
  simp only [Decimal.parse, Precision.ofText, String.toList_map, Text.foldCase,
    String.toList_ofList]
  rw [chars, Text.trim_small, Numeral.ofChars_small, Precision.ofNumeral_foldCase]

end Calculator
