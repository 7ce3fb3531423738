import Calculator.Proofs.Numeral.Reading
import Calculator.Proofs.Token.Spelling

/-!
# The shapes of scanned tokens

A scan finds a unit conversion as a whole or not at all, so the five tokens of a conversion stand
together among the tokens of a text, and none of them stands elsewhere. The text of a number is a
numeral of the grammar once its comma is a point: it may be refused for its size, and not for its
form.
-/

namespace Calculator

/-! ## Unit conversions -/

/-- The token belongs to a unit conversion. -/
def Token.isConversionPart : Token → Bool
  | .openSquare | .unit _ | .arrow | .closeSquare => true
  | _ => false

/-- Every opening square bracket is followed by a unit, an arrow, a unit and the closing bracket;
these stand nowhere else, and no unit has an empty name. -/
inductive WholeConversions : List Token → Prop
  | nil : WholeConversions []
  | plain {token : Token} {rest : List Token} (other : token.isConversionPart = false)
      (behind : WholeConversions rest) : WholeConversions (token :: rest)
  | conversion {source target : String} {rest : List Token} (hs : source ≠ "") (ht : target ≠ "")
      (behind : WholeConversions rest) :
      WholeConversions
        (.openSquare :: .unit source :: .arrow :: .unit target :: .closeSquare :: rest)

namespace WholeConversions

variable {token : Token} {first second rest : List Token}

/-- Conversions stay whole when rows of tokens are put one after the other. -/
theorem append (h : WholeConversions first) (h' : WholeConversions second) :
    WholeConversions (first ++ second) := by
  induction h with
  | nil => exact h'
  | plain other _ ih => exact .plain other ih
  | conversion hs ht _ ih => exact .conversion hs ht ih

/-- A token that belongs to no conversion can be taken off the front. -/
theorem tail (h : WholeConversions (token :: rest)) (other : token.isConversionPart = false) :
    WholeConversions rest := by
  cases h with
  | plain _ behind => exact behind
  | conversion => cases other

/-- What stands behind an opening square bracket. -/
theorem exists_units (h : WholeConversions (.openSquare :: rest)) :
    ∃ source target behind, rest = .unit source :: .arrow :: .unit target :: .closeSquare :: behind ∧
      WholeConversions behind := by
  cases h with
  | plain other => cases other
  | conversion hs ht behind => exact ⟨_, _, _, rfl, behind⟩

end WholeConversions

namespace Token

variable {l : Lettering} {c : Char} {cs rest : List Char} {tokens : List Token}

theorem ne_empty_of_isUnit {name : String} (h : IsUnit name) : name ≠ "" := by
  rintro rfl
  exact h.1 rfl

/-- A conversion that is found is found as a whole. -/
theorem wholeConversions_scanConversion (h : scanConversion cs = .ok (tokens, rest)) :
    WholeConversions tokens := by
  obtain ⟨⟨source, afterSource⟩, first, h⟩ := bind_eq_ok.1 h
  dsimp only at h
  split at h
  · obtain ⟨⟨target, afterTarget⟩, second, h⟩ := bind_eq_ok.1 h
    dsimp only at h
    split at h
    · cases h
      exact .conversion (ne_empty_of_isUnit (isUnit_of_scanUnit first))
        (ne_empty_of_isUnit (isUnit_of_scanUnit second)) .nil
    · cases h
  · cases h

/-- A number and its marker belong to no conversion. -/
theorem wholeConversions_scanNumber (h : scanNumber l cs = .ok (tokens, rest)) :
    WholeConversions tokens := by
  obtain ⟨⟨mantissa, left⟩, -, h⟩ := bind_eq_ok.1 h
  obtain ⟨⟨exponent, behind⟩, -, h⟩ := bind_eq_ok.1 h
  have marker : WholeConversions (scanMarker l behind).1 := by
    unfold scanMarker
    split
    · exact .nil
    · split
      · exact .plain rfl .nil
      · exact .nil
  cases h
  exact .plain rfl marker

/-- A step finds a whole conversion, or tokens that belong to none. -/
theorem wholeConversions_scanStep (h : scanStep l c cs = .ok (tokens, rest)) :
    WholeConversions tokens := by
  unfold scanStep at h
  split at h
  · cases h
    exact .plain rfl .nil
  · split at h
    · exact wholeConversions_scanConversion h
    · split at h
      · rename_i operator
        cases h
        unfold operator? at operator
        split at operator <;> cases operator <;> exact .plain rfl .nil
      · split at h
        · cases h
          exact .plain rfl .nil
        · split at h
          · cases h
            exact .plain rfl .nil
          · split at h
            · exact wholeConversions_scanNumber h
            · split at h
              · cases h
                exact .nil
              · cases h

/-- Every step adds whole conversions or none. -/
theorem wholeConversions_scanUpTo {limit : Nat} (h : scanUpTo l limit cs = .ok tokens) :
    WholeConversions tokens := by
  induction limit generalizing cs tokens with
  | zero => cases cs <;> cases h <;> exact .nil
  | succ limit ih =>
    cases cs with
    | nil =>
      cases h
      exact .nil
    | cons c cs =>
      obtain ⟨⟨first, rest⟩, step, h⟩ := bind_eq_ok.1 h
      obtain ⟨others, scanned, h⟩ := bind_eq_ok.1 h
      cases h
      exact (wholeConversions_scanStep step).append (ih scanned)

/-- The tokens of a text have whole conversions. -/
theorem wholeConversions_scan {text : String} (h : scan l text = .ok tokens) :
    WholeConversions tokens := wholeConversions_scanUpTo h

end Token

/-! ## Numbers -/

/-- The characters with a point in place of every comma. -/
def pointed (cs : List Char) : List Char := cs.map fun c => if c = ',' then '.' else c

theorem pointed_append (front back : List Char) :
    pointed (front ++ back) = pointed front ++ pointed back := List.map_append

/-- A text without a comma stays as it is. -/
theorem pointed_eq_self {cs : List Char} (plain : ∀ c ∈ cs, c ≠ ',') : pointed cs = cs :=
  (List.map_congr_left fun c mem => if_neg (plain c mem)).trans (List.map_id' _)

/-- Digits stay as they are. -/
theorem pointed_digits {cs : List Char} (digits : ∀ c ∈ cs, c.isDigit) : pointed cs = cs := by
  apply pointed_eq_self
  rintro c mem rfl
  exact absurd (digits ',' mem) (by decide)

/-- A glyph that separates is a point, or stands for one. -/
theorem pointed_separator {l : Lettering} {c : Char} (mark : l.isSeparator c = true)
    (cs : List Char) : pointed (c :: cs) = '.' :: pointed cs := by
  obtain rfl : c = l.separator.glyph := eq_of_beq mark
  cases l.separator <;> rfl

namespace Token

variable {l : Lettering} {c : Char} {cs left : List Char}

theorem isDigit_of_mem_takeWhile {cs : List Char} :
    ∀ c ∈ cs.takeWhile Char.isDigit, c.isDigit := fun c mem =>
  List.all_eq_true.1 List.all_takeWhile c mem

/-- A scanned mantissa is one of the grammar. -/
theorem exists_mantissa_of_scanMantissa {mantissa : List Char}
    (starts : (c.isDigit || l.isSeparator c) = true)
    (h : scanMantissa l (c :: cs) = .ok (mantissa, left)) :
    ∃ m : Mantissa, pointed mantissa = m.chars := by
  obtain ⟨tail, front⟩ := scanMantissa_head starts h
  unfold scanMantissa at h
  -- Without a separator the digits are all there is, and the first character is one of them.
  have whole (digits : mantissa = (c :: cs).takeWhile Char.isDigit) :
      ∃ m : Mantissa, pointed mantissa = m.chars := by
    have row : ∀ d ∈ mantissa, d.isDigit := digits ▸ isDigit_of_mem_takeWhile
    refine ⟨⟨.none, mantissa, none, row, by simp, by simp [front]⟩, ?_⟩
    rw [pointed_digits row]
    exact (List.append_nil _).symm
  split at h
  · cases h
    exact whole rfl
  · rename_i mark after found
    split at h
    · cases h
      exact whole rfl
    · rename_i separator
      dsimp only at h
      split at h
      · cases h
      · rename_i accepted
        cases h
        simp only [Bool.or_eq_true, beq_iff_eq, not_or] at accepted
        have nonempty : (c :: cs).takeWhile Char.isDigit ++ after.takeWhile Char.isDigit ≠ [] := by
          intro none
          obtain ⟨before, behind⟩ := List.append_eq_nil_iff.1 none
          exact accepted.2 (by rw [before, behind]; rfl)
        refine ⟨⟨.none, _, some (after.takeWhile Char.isDigit), isDigit_of_mem_takeWhile,
          isDigit_of_mem_takeWhile, nonempty⟩, ?_⟩
        rw [pointed_append, pointed_separator (by simpa using separator),
          pointed_digits isDigit_of_mem_takeWhile, pointed_digits isDigit_of_mem_takeWhile]
        rfl

/-- A scanned exponent is one of the grammar. -/
theorem exists_exponent_of_scanExponent {mantissa exponent : List Char}
    (h : scanExponent mantissa cs = .ok (exponent, left)) :
    ∃ e : Option Exponent, pointed exponent = e.elim [] Exponent.chars := by
  unfold scanExponent at h
  split at h
  · cases h
    exact ⟨none, rfl⟩
  · rename_i e after found
    split at h
    · rename_i starts
      dsimp only at h
      split at h
      · cases h
      · rename_i nonempty
        cases h
        obtain ⟨letter, rfl⟩ := ExponentCase.exists_letter (Bool.and_eq_true_iff.1 starts).1
        generalize Text.trimStart (splitSign (Text.trimStart after)).2 = row at nonempty ⊢
        have digits : ∀ c ∈ row.takeWhile Char.isDigit, c.isDigit := isDigit_of_mem_takeWhile
        obtain ⟨sign, written⟩ : ∃ s : Sign, (splitSign (Text.trimStart after)).1 = s.chars := by
          rcases splitSign_fst (Text.trimStart after) with none | plus | minus
          · exact ⟨.none, none⟩
          · exact ⟨.plus, plus⟩
          · exact ⟨.minus, minus⟩
        refine ⟨some ⟨letter, sign, row.takeWhile Char.isDigit, digits, by simpa using nonempty⟩, ?_⟩
        rw [written]
        have plain : pointed (letter.letter :: sign.chars) = letter.letter :: sign.chars := by
          cases letter <;> cases sign <;> rfl
        rw [← List.cons_append, pointed_append, plain, pointed_digits digits]
        rfl
    · cases h
      exact ⟨none, rfl⟩

/-- The text of a scanned number is that of a number once its comma is a point. -/
theorem exists_numeralText {text : String} (h : IsNumber l text) :
    ∃ n : NumeralText, pointed text.toList = n.chars := by
  obtain ⟨c, cs, mantissa, exponent, left, behind, starts, first, second, written⟩ := h
  obtain ⟨m, front⟩ := exists_mantissa_of_scanMantissa starts first
  obtain ⟨e, back⟩ := exists_exponent_of_scanExponent second
  exact ⟨⟨m, e⟩, by rw [written, pointed_append, front, back]; rfl⟩

end Token

/-! ## Refusals -/

/-- An exponent out of range is not a fault of form. -/
theorem Condition.ofSign_ne_conversionSyntax (negative : Bool) :
    ofSign negative ≠ .conversionSyntax := by
  cases negative <;> decide

/-- A number out of range is not a fault of form. -/
theorem Precision.check_ne_conversionSyntax (x : Decimal) : check x ≠ .error .conversionSyntax := by
  unfold check
  split
  · nofun
  · split
    · nofun
    · split <;> nofun

namespace NumeralText

/-- The text of a number is not refused for its form, however long it is. -/
theorem ofText_ne_conversionSyntax {p : Precision} {n : NumeralText} {text : String}
    (trimmed : Text.trim text.toList = n.chars) : p.ofText text ≠ .error .conversionSyntax := by
  have wellFormed := n.mantissa.isWellFormed_numeral n.tail
  rw [Precision.ofText, trimmed, ofChars_chars]
  by_cases vanishes : digitsValue n.mantissa.digits = 0
  · rw [Precision.ofNumeral_zero wellFormed vanishes]
    intro refused
    cases refused
  · rw [Precision.ofNumeral_eq wellFormed vanishes, writtenExponent_numeral]
    split
    · intro refused
      exact Condition.ofSign_ne_conversionSyntax _ (Except.error.inj refused)
    · dsimp only [Except.bind]
      split
      · intro refused
        exact Condition.ofSign_ne_conversionSyntax _ (Except.error.inj refused)
      · exact Precision.check_ne_conversionSyntax _

end NumeralText

/-- A scanned number is read, or is beyond the bounds of the exponents. -/
theorem Token.parse_ne_conversionImpossible {l : Lettering} {text : String}
    (h : IsNumber l text) : Decimal.parse text ≠ .error .conversionImpossible := by
  obtain ⟨n, written⟩ := exists_numeralText h
  have solid : ("0123456789.+-eE".toList.all fun c => !Text.isBlank c) = true := by decide
  have trimmed : Text.trim (text.map fun c => if c = ',' then '.' else c).toList = n.chars := by
    rw [String.toList_map]
    exact (congrArg Text.trim written).trans
      (trim_eq_self fun c mem => by
        simpa using List.all_eq_true.1 solid c (NumeralText.mem_chars mem))
  have form := NumeralText.ofText_ne_conversionSyntax (p := Precision.working) trimmed
  unfold Decimal.parse reported
  cases answer : Precision.working.ofText (text.map fun c => if c = ',' then '.' else c) with
  | ok => nofun
  | error condition =>
    rw [answer] at form
    cases condition with
    | conversionSyntax => exact absurd rfl form
    | _ => nofun

end Calculator
