import Calculator.Proofs.Text.Case
import Calculator.Proofs.Token.Names
import Mathlib.Data.List.Forall2

/-!
# What a scan keeps

A scan drops the blanks of a text and nothing else. Every step takes some characters off the front
of the text; without the blanks among them they are the tokens of the step as they are written, in
order. So the tokens of a text, written one after the other, are the text without its blanks. Only
the letter of the imaginary unit may stand in the text as a capital.
-/

namespace Calculator

namespace Text

/-- The characters without the blanks among them. -/
def solid (cs : List Char) : List Char := cs.filter (!isBlank ·)

@[simp] theorem solid_nil : solid [] = [] := rfl

theorem solid_append (front back : List Char) : solid (front ++ back) = solid front ++ solid back :=
  List.filter_append ..

/-- A character that is no blank stays. -/
theorem solid_cons {c : Char} (plain : isBlank c = false) (cs : List Char) :
    solid (c :: cs) = c :: solid cs :=
  List.filter_cons_of_pos (by simp [plain])

/-- A text without blanks stays as it is. -/
theorem solid_eq_self {cs : List Char} (plain : ∀ c ∈ cs, isBlank c = false) : solid cs = cs := by
  apply List.filter_eq_self.2
  intro c mem
  simp [plain c mem]

/-- Blanks at the front make no difference. -/
theorem solid_trimStart (cs : List Char) : solid (trimStart cs) = solid cs := by
  induction cs with
  | nil => rfl
  | cons c cs ih =>
    by_cases blank : isBlank c = true
    · rw [trimStart, List.dropWhile_cons_of_pos blank, solid, solid,
        List.filter_cons_of_neg (by simp [blank])]
      exact ih
    · rw [trimStart, List.dropWhile_cons_of_neg blank]

/-- A row of characters that are no blanks is kept as it is. -/
theorem solid_span {p : Char → Bool} (plain : ∀ c, p c = true → isBlank c = false)
    (cs : List Char) : solid cs = cs.takeWhile p ++ solid (cs.dropWhile p) := by
  have row : solid (cs.takeWhile p) = cs.takeWhile p :=
    solid_eq_self fun c mem => plain c (List.all_eq_true.1 List.all_takeWhile c mem)
  calc solid cs = solid (cs.takeWhile p ++ cs.dropWhile p) := by rw [List.takeWhile_append_dropWhile]
    _ = cs.takeWhile p ++ solid (cs.dropWhile p) := by rw [solid_append, row]

end Text

namespace Token

open Text (solid solid_append solid_cons solid_eq_self solid_trimStart solid_span isBlank)

variable {l : Lettering} {c : Char} {cs rest : List Char} {tokens : List Token}

/-! ## Pieces of a text -/

/-- The characters are the token as it is written. The letter of the imaginary unit may be a
capital. -/
def SpelledAs (l : Lettering) (token : Token) (piece : List Char) : Prop :=
  piece = token.spelling l ∨
    token = .imaginaryOne ∧ piece.map Char.toLower = token.spelling l

/-- The characters are the tokens as they are written, one after the other. -/
def Spelled (l : Lettering) (tokens : List Token) (cs : List Char) : Prop :=
  ∃ pieces, List.Forall₂ (SpelledAs l) tokens pieces ∧ pieces.flatten = cs

theorem spelled_nil : Spelled l [] [] := ⟨[], .nil, rfl⟩

/-- One more token in front, with its piece of the text. -/
theorem Spelled.cons {token : Token} {piece : List Char} (h : SpelledAs l token piece)
    (others : Spelled l tokens cs) : Spelled l (token :: tokens) (piece ++ cs) := by
  obtain ⟨pieces, each, rfl⟩ := others
  exact ⟨piece :: pieces, .cons h each, rfl⟩

/-- Two rows of tokens one after the other, with their texts. -/
theorem Spelled.append {first second : List Token} {front back : List Char}
    (h : Spelled l first front) (h' : Spelled l second back) :
    Spelled l (first ++ second) (front ++ back) := by
  obtain ⟨pieces, each, rfl⟩ := h
  obtain ⟨others, each', rfl⟩ := h'
  exact ⟨pieces ++ others, List.rel_append each each', List.flatten_append⟩

/-- Each token is written in its own spelling. -/
theorem spelled_flatMap (tokens : List Token) :
    Spelled l tokens (tokens.flatMap (spelling l)) := by
  induction tokens with
  | nil => exact spelled_nil
  | cons token tokens ih => exact ih.cons (.inl rfl)

/-- Between the text `cs` and the text `rest` that is left of it stand these tokens and blanks. -/
def Takes (l : Lettering) (cs : List Char) (tokens : List Token) (rest : List Char) : Prop :=
  ∃ front, Spelled l tokens front ∧ solid cs = front ++ solid rest

/-- A step takes tokens if the text without blanks is what they spell, and then the rest without
blanks. -/
theorem takes_spelling (h : solid cs = tokens.flatMap (spelling l) ++ solid rest) :
    Takes l cs tokens rest := ⟨_, spelled_flatMap tokens, h⟩

/-- Two steps one after the other. -/
theorem Takes.append {left : List Char} {first second : List Token}
    (h : Takes l cs first left) (h' : Takes l left second rest) :
    Takes l cs (first ++ second) rest := by
  obtain ⟨front, spelled, kept⟩ := h
  obtain ⟨behind, spelled', kept'⟩ := h'
  exact ⟨front ++ behind, spelled.append spelled', by rw [kept, kept', List.append_assoc]⟩

/-- A letter of the imaginary unit is the marker in either case. -/
theorem takes_glyph (glyph : l.isGlyph c = true) (rest : List Char) :
    Takes l (c :: rest) [.imaginaryOne] rest := by
  have lower : c.toLower = l.imaginaryUnit.glyph := eq_of_beq glyph
  have plain : isBlank c = false := by
    rw [← Text.isBlank_toLower, lower]
    cases l.imaginaryUnit <;> rfl
  have letter : SpelledAs l .imaginaryOne [c] := .inr ⟨rfl, by simp [lower, spelling]⟩
  exact ⟨[c], spelled_nil.cons letter, solid_cons plain rest⟩

/-! ## Operators and unit conversions -/

/-- An assignment operator takes its one or two characters. -/
theorem takes_assignment {op : AssignOp} (h : assignment? (c :: cs) = some (op, rest)) :
    Takes l (c :: cs) [.assign op] rest := by
  apply takes_spelling
  have plain : solid op.spelling = op.spelling := by cases op <;> rfl
  rw [assignment?_eq_some_iff.1 h, solid_append, plain]
  simp [spelling]

/-- A symbol of one character takes that character. -/
theorem takes_operator {token : Token} (h : operator? c = some token) (rest : List Char) :
    Takes l (c :: rest) [token] rest := by
  apply takes_spelling
  unfold operator? at h
  split at h <;> cases h <;> rfl

/-- The name of a unit is what stands in front of the rest, without blanks. -/
theorem solid_scanUnit {name : List Char} (h : scanUnit cs = .ok (name, rest)) :
    solid cs = name ++ solid rest := by
  simp only [scanUnit] at h
  split at h
  · cases h
  · cases h
    rw [solid_trimStart, ← solid_trimStart cs]
    exact solid_span (fun c unit => not_isBlank_of_isUnitChar unit) _

/-- A conversion takes its brackets, its units and its arrow. -/
theorem takes_conversion (h : scanConversion cs = .ok (tokens, rest)) :
    Takes l ('[' :: cs) tokens rest := by
  obtain ⟨⟨source, afterSource⟩, first, h⟩ := bind_eq_ok.1 h
  dsimp only at h
  split at h
  · obtain ⟨⟨target, afterTarget⟩, second, h⟩ := bind_eq_ok.1 h
    dsimp only at h
    split at h
    · cases h
      apply takes_spelling
      rw [solid_cons (by rfl), solid_scanUnit first, solid_cons (by rfl), solid_cons (by rfl),
        solid_scanUnit second, solid_cons (by rfl)]
      simp [spelling]
    · cases h
  · cases h

/-! ## Numbers -/

/-- A row of digits has no blanks in it. -/
theorem solid_isDigit (cs : List Char) :
    solid cs = cs.takeWhile Char.isDigit ++ solid (cs.dropWhile Char.isDigit) :=
  solid_span (fun _ digit => Text.isBlank_eq_false_of_isDigit digit) cs

/-- A mantissa is the characters in front of what is left of the text. -/
theorem solid_scanMantissa {mantissa : List Char} (h : scanMantissa l cs = .ok (mantissa, rest)) :
    solid cs = mantissa ++ solid rest := by
  rw [solid_isDigit cs]
  unfold scanMantissa at h
  split at h
  · rename_i none
    cases h
    rw [none]
  · rename_i d after found
    split at h
    · cases h
      rw [found]
    · rename_i mark
      dsimp only at h
      split at h
      · cases h
      · cases h
        have separator : isBlank d = false := by
          obtain rfl : d = l.separator.glyph := by simpa [Lettering.isSeparator] using mark
          cases l.separator <;> rfl
        rw [found, solid_cons separator, solid_isDigit after]
        simp

/-- A sign is split off the front of a text, and nothing is lost. -/
theorem solid_splitSign (cs : List Char) :
    solid cs = (splitSign cs).1 ++ solid (splitSign cs).2 := by
  unfold splitSign
  split
  · exact solid_cons (by rfl) _
  · exact solid_cons (by rfl) _
  · rfl

/-- An exponent is the characters in front of what is left, without the blanks between letter and
digits. -/
theorem solid_scanExponent {mantissa exponent : List Char}
    (h : scanExponent mantissa cs = .ok (exponent, rest)) : solid cs = exponent ++ solid rest := by
  unfold scanExponent at h
  split at h
  · cases h
    rfl
  · rename_i e after found
    split at h
    · rename_i starts
      dsimp only at h
      split at h
      · cases h
      · cases h
        have mark : isBlank e = false := by
          simp only [isExponentMark, Bool.and_eq_true, Bool.or_eq_true, beq_iff_eq] at starts
          rcases starts.1 with rfl | rfl <;> rfl
        rw [← solid_trimStart cs, found, solid_cons mark, ← solid_trimStart after, solid_splitSign,
          ← solid_trimStart (splitSign _).2, solid_isDigit]
        simp
    · cases h
      rfl

/-- A marker of the imaginary part takes its letter, and nothing if there is none. -/
theorem takes_marker (l : Lettering) (cs : List Char) :
    Takes l cs (scanMarker l cs).1 (scanMarker l cs).2 := by
  have trimmed {tokens rest} (h : Takes l (Text.trimStart cs) tokens rest) :
      Takes l cs tokens rest := by
    rwa [Takes, solid_trimStart] at h
  unfold scanMarker
  split
  · exact ⟨[], spelled_nil, rfl⟩
  · rename_i c rest found
    split
    · rename_i glyph
      apply trimmed
      rw [found]
      exact takes_glyph (Bool.and_eq_true_iff.1 glyph).1 rest
    · exact ⟨[], spelled_nil, rfl⟩

/-- A number takes its mantissa, its exponent and a marker behind them. -/
theorem takes_number (h : scanNumber l cs = .ok (tokens, rest)) : Takes l cs tokens rest := by
  obtain ⟨⟨mantissa, afterMantissa⟩, first, h⟩ := bind_eq_ok.1 h
  obtain ⟨⟨exponent, afterExponent⟩, second, h⟩ := bind_eq_ok.1 h
  cases h
  have numeral : Takes l cs [.number (String.ofList (mantissa ++ exponent))] afterExponent := by
    apply takes_spelling
    rw [solid_scanMantissa first, solid_scanExponent second]
    simp [spelling]
  exact numeral.append (takes_marker l afterExponent)

/-! ## The whole text -/

/-- A step takes its tokens off the front of the text, and blanks. -/
theorem takes_scanStep (h : scanStep l c cs = .ok (tokens, rest)) :
    Takes l (c :: cs) tokens rest := by
  unfold scanStep at h
  split at h
  · rename_i assignment
    cases h
    exact takes_assignment assignment
  · split at h
    · rename_i bracket
      subst bracket
      exact takes_conversion h
    · split at h
      · rename_i operator
        cases h
        exact takes_operator operator cs
      · split at h
        · rename_i starts
          cases h
          apply takes_spelling
          have start : isNameChar c = true :=
            Bool.or_eq_true_iff.2 (.inl (Bool.and_eq_true_iff.1 starts).1)
          rw [solid_cons (not_isBlank_of_isNameChar start),
            solid_span (fun _ letter => not_isBlank_of_isNameChar letter) cs]
          simp [spelling]
        · split at h
          · rename_i glyph
            cases h
            exact takes_glyph glyph cs
          · split at h
            · exact takes_number h
            · split at h
              · rename_i blank
                cases h
                refine ⟨[], spelled_nil, ?_⟩
                rw [solid_trimStart, solid, List.filter_cons_of_neg (by simp [blank])]
                rfl
              · cases h

/-- A scan takes its tokens off the front of the text until nothing is left. -/
theorem spelled_scanUpTo {limit : Nat} (enough : cs.length ≤ limit)
    (h : scanUpTo l limit cs = .ok tokens) : Spelled l tokens (solid cs) := by
  induction limit generalizing cs tokens with
  | zero =>
    obtain rfl : cs = [] := List.eq_nil_of_length_eq_zero (Nat.le_zero.1 enough)
    cases h
    exact spelled_nil
  | succ limit ih =>
    cases cs with
    | nil =>
      cases h
      exact spelled_nil
    | cons c cs =>
      obtain ⟨⟨first, rest⟩, step, h⟩ := bind_eq_ok.1 h
      obtain ⟨others, scanned, h⟩ := bind_eq_ok.1 h
      cases h
      obtain ⟨front, spelled, kept⟩ := takes_scanStep step
      have shorter : rest.length ≤ limit := by
        have := (scanStep_suffix step).length_le
        rw [List.length_cons] at enough
        omega
      rw [kept]
      exact spelled.append (ih shorter scanned)

/-- The tokens of a text, written one after the other, are the text without its blanks, but for
capitals that stand for the imaginary unit. -/
theorem exists_pieces_of_scan {f : ComplexFormat} {text : String} {tokens : List Token}
    (h : scan f.lettering text = .ok tokens) :
    ∃ pieces : List (List Char),
      List.Forall₂ (fun token piece => piece = token.spelling f.lettering ∨
        token = .imaginaryOne ∧ piece.map Char.toLower = token.spelling f.lettering) tokens pieces ∧
      pieces.flatten = text.toList.filter (!Text.isBlank ·) :=
  spelled_scanUpTo (Nat.le_refl _) h

/-- The blanks inside an exponent and around a unit are dropped, and a capital marks the imaginary
part. -/
theorem exists_pieces_of_blanks :
    let f : ComplexFormat := ⟨⟨25, .general, .upper, .comma⟩, .j⟩
    let text := "Jet += 2,5 e - 3 J [ mi/h -> m ]"
    let tokens : List Token := [.identifier "Jet", .assign .add, .number "2,5e-3", .imaginaryOne,
      .openSquare, .unit "mi/h", .arrow, .unit "m", .closeSquare]
    scan f.lettering text = .ok tokens ∧ ∃ pieces : List (List Char),
      List.Forall₂ (fun token piece => piece = token.spelling f.lettering ∨
        token = .imaginaryOne ∧ piece.map Char.toLower = token.spelling f.lettering) tokens pieces ∧
      pieces.flatten = text.toList.filter (!Text.isBlank ·) := by
  intro f text tokens
  have scanned : scan f.lettering text = .ok tokens := by decide +kernel
  exact ⟨scanned, exists_pieces_of_scan scanned⟩

end Token

end Calculator
