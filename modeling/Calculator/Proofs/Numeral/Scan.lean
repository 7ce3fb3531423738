import Calculator.Proofs.Numeral.Layout
import Calculator.Token.Scan

/-!
# Scanning written numerals

A numeral of a layout is scanned as one number token with the same text, whatever follows it that
does not continue it, and the letter of the imaginary unit right after it as the marker.
-/

namespace Calculator

/-- Two classes of characters meet where the row of the first one ends. -/
theorem span_append {p : Char → Bool} {front rest : List Char} (row : ∀ c ∈ front, p c)
    (stop : ∀ c ∈ rest.head?, p c = false) :
    (front ++ rest).takeWhile p = front ∧ (front ++ rest).dropWhile p = rest := by
  rw [List.takeWhile_append_of_pos row, List.dropWhile_append_of_pos row]
  cases rest with
  | nil => simp
  | cons c rest =>
    have off : ¬p c = true := by simp [stop c rfl]
    simp [List.takeWhile_cons_of_neg off, List.dropWhile_cons_of_neg off]

/-- A text that does not begin with a blank stays as it is. -/
theorem trimStart_eq_self {cs : List Char} (solid : ∀ c ∈ cs.head?, Text.isBlank c = false) :
    Text.trimStart cs = cs :=
  (@span_append Text.isBlank [] cs (by simp) solid).2

/-- A separator is no digit. -/
theorem isDigit_glyph (s : Separator) : s.glyph.isDigit = false := by
  cases s <;> rfl

theorem ExponentCase.isExponentMark_letter (c : ExponentCase) : isExponentMark c.letter := by
  cases c <;> rfl

namespace Token

/-- What comes after a numeral does not go on with it. -/
structure EndsNumeral (l : Lettering) (rest : List Char) : Prop where
  digit : ∀ c ∈ rest.head?, c.isDigit = false
  separator : ∀ c ∈ rest.head?, l.isSeparator c = false
  exponent : ∀ c ∈ (Text.trimStart rest).head?, isExponentMark c = false

variable {g : ComplexFormat} {w : WrittenNumeral} {rest : List Char}

section

variable {l : Lettering} {whole fraction : List Char}

/-- Digits are a mantissa. -/
theorem scanMantissa_whole (digits : ∀ c ∈ whole, c.isDigit)
    (digit : ∀ c ∈ rest.head?, c.isDigit = false)
    (separator : ∀ c ∈ rest.head?, l.isSeparator c = false) :
    scanMantissa l (whole ++ rest) = .ok (whole, rest) := by
  obtain ⟨taken, left⟩ := span_append digits digit
  unfold scanMantissa
  rw [taken, left]
  cases rest with
  | nil => rfl
  | cons c rest =>
    dsimp only
    rw [if_pos (by simp [separator c rfl])]

/-- Digits with a separator are a mantissa. -/
theorem scanMantissa_point (digits : ∀ c ∈ whole, c.isDigit) (decimals : ∀ c ∈ fraction, c.isDigit)
    (some : whole ≠ [] ∨ fraction ≠ []) (digit : ∀ c ∈ rest.head?, c.isDigit = false)
    (separator : ∀ c ∈ rest.head?, l.isSeparator c = false) :
    scanMantissa l (whole ++ l.separator.glyph :: (fraction ++ rest)) =
      .ok (whole ++ l.separator.glyph :: fraction, rest) := by
  have stop : ∀ c ∈ (l.separator.glyph :: (fraction ++ rest)).head?, c.isDigit = false := by
    rintro c ⟨⟩
    exact isDigit_glyph _
  obtain ⟨taken, left⟩ := span_append digits stop
  obtain ⟨fractionTaken, fractionLeft⟩ := span_append decimals digit
  have mark : l.isSeparator l.separator.glyph = true := beq_self_eq_true l.separator.glyph
  have last : rest.head?.any l.isSeparator = false := by
    cases rest with
    | nil => rfl
    | cons c rest => exact separator c rfl
  have length : 0 < whole.length + fraction.length := by
    rcases some with some | some
    · have := List.length_pos_iff.2 some
      omega
    · have := List.length_pos_iff.2 some
      omega
  unfold scanMantissa
  rw [taken, left]
  dsimp only
  rw [if_neg (by simp [mark]), fractionTaken, fractionLeft, last, if_neg]
  rw [Bool.false_or, beq_iff_eq, List.length_append, List.length_cons]
  omega

end

/-- The mantissa that a format writes is scanned up to what ends it. -/
theorem scanMantissa_append (digit : ∀ c ∈ rest.head?, c.isDigit = false)
    (separator : ∀ c ∈ rest.head?, g.lettering.isSeparator c = false) :
    scanMantissa g.lettering (w.mantissa g.number.separator.glyph ++ rest) =
      .ok (w.mantissa g.number.separator.glyph, rest) := by
  unfold WrittenNumeral.mantissa
  by_cases empty : w.fraction = []
  · rw [if_pos empty, List.append_nil]
    exact scanMantissa_whole w.whole_digits digit separator
  · rw [if_neg empty, List.append_assoc, List.cons_append]
    exact scanMantissa_point w.whole_digits w.fraction_digits (.inr empty) digit separator

/-- An exponent begins here, behind the blanks. -/
def startsExponent (cs : List Char) : Bool :=
  match Text.trimStart cs with
  | [] => false
  | e :: rest => isExponentMark e && exponentFollows rest

/-- No exponent starts where no letter of one follows the blanks. -/
theorem startsExponent_eq_false
    (plain : ∀ c ∈ (Text.trimStart rest).head?, isExponentMark c = false) :
    startsExponent rest = false := by
  unfold startsExponent
  split
  · rfl
  · rename_i e after found
    rw [plain e (by rw [found]; rfl), Bool.false_and]

/-- Where no exponent starts, none is taken. -/
theorem scanExponent_none (mantissa : List Char) (none : startsExponent rest = false) :
    scanExponent mantissa rest = .ok ([], rest) := by
  unfold startsExponent at none
  unfold scanExponent
  split
  · rfl
  · rename_i e after found
    rw [found] at none
    rw [if_neg (Bool.eq_false_iff.1 none)]

/-- An exponent that is written without blanks is taken as a whole. -/
theorem scanExponent_parts (mantissa : List Char) {e : Char} {sign ds : List Char}
    (mark : isExponentMark e) (signed : sign = [] ∨ sign = ['+'] ∨ sign = ['-'])
    (digits : ∀ c ∈ ds, c.isDigit) (some : ds ≠ [])
    (stop : ∀ c ∈ rest.head?, c.isDigit = false) :
    scanExponent mantissa (e :: (sign ++ (ds ++ rest))) = .ok (e :: (sign ++ ds), rest) := by
  obtain ⟨d, others, rfl⟩ := List.exists_cons_of_ne_nil some
  have digit : d.isDigit := digits d List.mem_cons_self
  have letterSolid : ∀ cs, Text.trimStart (e :: cs) = e :: cs := by
    intro cs
    refine trimStart_eq_self ?_
    rintro c ⟨⟩
    simp only [isExponentMark, Bool.or_eq_true, beq_iff_eq] at mark
    rcases mark with rfl | rfl <;> rfl
  have digitSolid : Text.trimStart (d :: others ++ rest) = d :: others ++ rest :=
    trimStart_eq_self (by rintro c ⟨⟩; exact Text.isBlank_eq_false_of_isDigit digit)
  have signSolid : Text.trimStart (sign ++ (d :: others ++ rest)) =
      sign ++ (d :: others ++ rest) := by
    rcases signed with rfl | rfl | rfl
    · exact digitSolid
    · rfl
    · rfl
  have follows : exponentFollows (sign ++ (d :: others ++ rest)) = true := by
    unfold exponentFollows
    rw [signSolid]
    rcases signed with rfl | rfl | rfl
    · simp [digit]
    · rfl
    · rfl
  have split : splitSign (sign ++ (d :: others ++ rest)) = (sign, d :: others ++ rest) := by
    rcases signed with rfl | rfl | rfl
    · unfold splitSign
      split
      · rename_i found
        cases found
        cases digit
      · rename_i found
        cases found
        cases digit
      · rfl
    · rfl
    · rfl
  obtain ⟨taken, left⟩ := span_append digits stop
  simp only [scanExponent, letterSolid, mark, follows, Bool.and_self, if_true, signSolid, split,
    digitSolid, taken, left, List.isEmpty_cons, Bool.false_eq_true, if_false]

/-- The exponent that a format writes is scanned up to what ends it. -/
theorem scanExponent_append (mantissa : List Char) (ends : EndsNumeral g.lettering rest) :
    scanExponent mantissa (w.suffix g.number ++ rest) = .ok (w.suffix g.number, rest) := by
  unfold WrittenNumeral.suffix
  split
  · exact scanExponent_none mantissa (startsExponent_eq_false ends.exponent)
  · rename_i e _
    have sign : [if e < 0 then '-' else '+'] = [] ∨ [if e < 0 then '-' else '+'] = ['+'] ∨
        [if e < 0 then '-' else '+'] = ['-'] := by
      split <;> simp
    exact scanExponent_parts mantissa (ExponentCase.isExponentMark_letter _) sign
      (fun c mem => isDigit_of_mem_digitChars mem) (digitChars_ne_nil _) ends.digit

/-- A numeral is one token. -/
theorem scanNumber_append (ends : EndsNumeral g.lettering rest) :
    scanNumber g.lettering (w.chars g.number ++ rest) =
      .ok (.number (String.ofList (w.chars g.number)) :: (scanMarker g.lettering rest).1,
        (scanMarker g.lettering rest).2) := by
  have mantissa : scanMantissa g.lettering
      (w.mantissa g.number.separator.glyph ++ (w.suffix g.number ++ rest)) =
      .ok (w.mantissa g.number.separator.glyph, w.suffix g.number ++ rest) := by
    unfold WrittenNumeral.suffix
    split
    · exact scanMantissa_append ends.digit ends.separator
    · refine scanMantissa_append ?_ ?_
      · rintro c ⟨⟩
        cases g.number.exponentCase <;> rfl
      · rintro c ⟨⟩
        unfold Lettering.isSeparator
        cases g.number.exponentCase <;> cases g.lettering.separator <;> rfl
  unfold scanNumber WrittenNumeral.chars
  rw [List.append_assoc, mantissa]
  simp only [bind, Except.bind, scanExponent_append _ ends]
  rfl

/-! ## Steps of the scan -/

/-- A digit starts a number. -/
theorem scanStep_digit {l : Lettering} {c : Char} (digit : c.isDigit) (cs : List Char) :
    scanStep l c cs = scanNumber l (c :: cs) := by
  have plain := of_isDigit (fun d => operator? d == none && d != '[' && !isNameStart d &&
    d.toLower != 'i' && d.toLower != 'j') (by rfl) digit
  simp only [Bool.and_eq_true, beq_iff_eq, bne_iff_ne, Bool.not_eq_true'] at plain
  obtain ⟨⟨⟨⟨operator, bracket⟩, name⟩, i⟩, j⟩ := plain
  have assignment : assignment? (c :: cs) = none := by
    unfold assignment?
    split
    all_goals first | rfl | (rename_i found; cases found; cases digit)
  have letter : l.isGlyph c = false := by
    cases unit : l.imaginaryUnit <;> simp [Lettering.isGlyph, unit, ImaginaryUnit.glyph, i, j]
  unfold scanStep
  simp only [assignment, operator, startsName, name, letter, bracket, digit, Bool.false_and,
    Bool.true_or, Bool.false_eq_true, if_false, if_true]

/-- A blank is left out with those after it. -/
theorem scanStep_blank (l : Lettering) (cs : List Char) :
    scanStep l ' ' cs = .ok ([], Text.trimStart cs) := by
  obtain ⟨separator, unit⟩ := l
  cases separator <;> cases unit <;> rfl

/-- A sign is a token unless it belongs to an assignment or an arrow. -/
theorem scanStep_sign (l : Lettering) (negative : Bool) {cs : List Char}
    (plain : ∀ c ∈ cs.head?, c ≠ '=') :
    scanStep l (if negative then '-' else '+') cs =
      .ok ([if negative then .minus else .plus], cs) := by
  have assignment : assignment? ((if negative then '-' else '+') :: cs) = none := by
    unfold assignment?
    split
    all_goals first | rfl | (rename_i found; cases negative <;> cases found <;> simp at plain)
  unfold scanStep
  rw [assignment]
  cases negative <;> rfl

/-! ## Whole texts -/

/-- The tokens of a row of characters. -/
def ofChars (l : Lettering) (cs : List Char) : Except GrammarError (List Token) :=
  scanUpTo l cs.length cs

theorem scan_ofList (l : Lettering) (cs : List Char) : scan l (String.ofList cs) = ofChars l cs := by
  rw [scan, ofChars, String.toList_ofList]

/-- A scan goes on with the text that its first step leaves. -/
theorem ofChars_step {l : Lettering} {c : Char} {cs rest : List Char} {tokens : List Token}
    (step : scanStep l c cs = .ok (tokens, rest)) :
    ofChars l (c :: cs) = (ofChars l rest).map (tokens ++ ·) := by
  have shorter := (scanStep_suffix step).length_le
  have same : scanUpTo l cs.length rest = ofChars l rest := scanUpTo_eq shorter (Nat.le_refl _)
  rw [ofChars, List.length_cons, scanUpTo, step]
  simp only [bind, Except.bind, same]
  cases ofChars l rest <;> rfl

/-- A numeral that a format writes is one token, with a marker behind it if one follows. -/
theorem ofChars_numeral (ends : EndsNumeral g.lettering rest) :
    ofChars g.lettering (w.chars g.number ++ rest) =
      (ofChars g.lettering (scanMarker g.lettering rest).2).map fun tokens =>
        .number (String.ofList (w.chars g.number)) ::
          ((scanMarker g.lettering rest).1 ++ tokens) := by
  have number := scanNumber_append (w := w) ends
  match row : w.whole, w.whole_ne_nil, w.whole_digits with
  | c :: cs, _, digits =>
    have front : w.chars g.number ++ rest = c :: (cs ++
        ((if w.fraction = [] then [] else g.number.separator.glyph :: w.fraction) ++
          w.suffix g.number ++ rest)) := by
      simp [WrittenNumeral.chars, WrittenNumeral.mantissa, row]
    rw [front, ← scanStep_digit (digits c List.mem_cons_self)] at number
    rw [front, ofChars_step number]
    rfl

end Token

end Calculator
