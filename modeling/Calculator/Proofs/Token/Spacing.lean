import Calculator.Proofs.Token.Case
import Calculator.Proofs.Token.Conservation
import Calculator.Proofs.Token.Spelling

/-!
# Blanks between tokens

The tokens of a text, written with single blanks between them, are scanned as the same tokens. A
numeral looks for an exponent across blanks, and so does the letter of an exponent for its digits;
what they find depends on the text without its blanks, which is the same before and after. The
marker behind a number is what would be read there without the number, and every other token ends at
a blank.
-/

namespace Calculator.Token

open Text (solid small)

variable {l : Lettering} {c : Char} {cs rest : List Char} {token : Token} {tokens : List Token}
  {piece : List Char} {pieces : List (List Char)}

/-! ## Texts that differ in blanks -/

/-- A text in which nothing but blanks stands before its end is empty without them. -/
theorem solid_eq_nil (found : Text.trimStart cs = []) : solid cs = [] := by
  rw [← Text.solid_trimStart, found, Text.solid_nil]

/-- The blanks in front of a text make no difference once all blanks are dropped. -/
theorem solid_eq_cons (found : Text.trimStart cs = c :: rest) : solid cs = c :: solid rest := by
  have head := List.head?_dropWhile_not Text.isBlank cs
  rw [← Text.trimStart, found] at head
  rw [← Text.solid_trimStart, found, Text.solid_cons (by simpa using head)]

theorem trimStart_solid (cs : List Char) : Text.trimStart (solid cs) = solid cs :=
  trimStart_eq_self fun c mem => by
    simpa using (List.mem_filter.1 (List.mem_of_mem_head? mem)).2

/-- Blanks do not hide the exponent that follows a letter. -/
theorem exponentFollows_solid (cs : List Char) :
    exponentFollows (solid cs) = exponentFollows cs := by
  unfold exponentFollows
  rw [trimStart_solid]
  cases found : Text.trimStart cs with
  | nil => rw [solid_eq_nil found]
  | cons c rest => rw [solid_eq_cons found]

/-- Whether an exponent begins depends on the characters that are no blanks, not on their case. -/
theorem startsExponent_solid (cs : List Char) : startsExponent (solid cs) = startsExponent cs := by
  unfold startsExponent
  rw [trimStart_solid]
  cases found : Text.trimStart cs with
  | nil => rw [solid_eq_nil found]
  | cons c rest =>
    rw [solid_eq_cons found]
    dsimp only
    rw [exponentFollows_solid]

/-- An exponent starts with its letter in either case. -/
theorem startsExponent_small (cs : List Char) : startsExponent (small cs) = startsExponent cs := by
  unfold startsExponent
  rw [Text.trimStart_small]
  cases Text.trimStart cs with
  | nil => rfl
  | cons c rest =>
    rw [Text.small_cons]
    dsimp only
    rw [isExponentMark_toLower, exponentFollows_small]

/-- Blanks are no letters, so they can be dropped before the letters are made small or after. -/
theorem solid_small (cs : List Char) : solid (small cs) = small (solid cs) := by
  have blind : (fun c => !Text.isBlank c) ∘ Char.toLower = fun c => !Text.isBlank c :=
    funext fun c => congrArg not (Text.isBlank_toLower c)
  rw [solid, small, List.filter_map, blind, small, solid]

/-! ## Pieces with blanks between them -/

/-- The pieces with a blank in front of each. -/
def behind (pieces : List (List Char)) : List Char := pieces.flatMap (' ' :: ·)

/-- Behind a blank each piece begins on its own. -/
theorem parted_behind (pieces : List (List Char)) : Parted (behind pieces) := by
  cases pieces with
  | nil => nofun
  | cons piece rest => exact parted_blank _

/-- The blanks between the pieces are the only ones that are added to them. -/
theorem solid_behind (pieces : List (List Char)) : solid (behind pieces) = solid pieces.flatten := by
  induction pieces with
  | nil => rfl
  | cons piece rest ih =>
    have front : solid (' ' :: piece) = solid piece := List.filter_cons_of_neg (by decide)
    rw [behind, List.flatMap_cons, Text.solid_append, front, List.flatten_cons, Text.solid_append,
      ← ih, behind]

theorem small_append (front back : List Char) : small (front ++ back) = small front ++ small back :=
  List.map_append

/-- In small letters, a piece is the token as it is written. -/
theorem SpelledAs.small_eq (h : SpelledAs l token piece) : small piece = small (token.spelling l) := by
  rcases h with rfl | ⟨rfl, lower⟩
  · rfl
  · have letter : small (spelling l .imaginaryOne) = spelling l .imaginaryOne := by
      obtain ⟨separator, unit⟩ := l
      cases unit <;> rfl
    rw [letter]
    exact lower

/-- The pieces are the tokens as they are written, but for the case of an imaginary unit. -/
theorem small_flatten (h : List.Forall₂ (SpelledAs l) tokens pieces) :
    small pieces.flatten = small (tokens.flatMap (spelling l)) := by
  induction h with
  | nil => rfl
  | cons first _ ih =>
    rw [List.flatten_cons, List.flatMap_cons, small_append, small_append, first.small_eq, ih]

/-- The tokens of a text show whether an exponent begins there. -/
theorem startsExponent_behind (scanned : ofChars l cs = .ok tokens)
    (h : List.Forall₂ (SpelledAs l) tokens pieces) :
    startsExponent (behind pieces) = startsExponent cs := by
  obtain ⟨others, each, text⟩ := spelled_scanUpTo (Nat.le_refl _) scanned
  calc startsExponent (behind pieces) = startsExponent (solid pieces.flatten) := by
        rw [← startsExponent_solid, solid_behind]
    _ = startsExponent (solid (small pieces.flatten)) := by
        rw [solid_small, startsExponent_small]
    _ = startsExponent (solid (small others.flatten)) := by
        rw [small_flatten h, small_flatten each]
    _ = startsExponent cs := by
        rw [text, solid_small, startsExponent_small, startsExponent_solid, startsExponent_solid]

/-- The pieces that tokens are written as, with blanks between them, are scanned as the tokens. -/
def Respaces (l : Lettering) (tokens : List Token) : Prop :=
  ∀ pieces, List.Forall₂ (SpelledAs l) tokens pieces → ofChars l (behind pieces) = .ok tokens

theorem respaces_nil : Respaces l [] := by
  rintro pieces ⟨⟩
  rfl

/-- A blank in front of a text is passed over. -/
theorem ofChars_blank (l : Lettering) (cs : List Char) : ofChars l (' ' :: cs) = ofChars l cs := by
  have gone : Text.trimStart (' ' :: cs) = Text.trimStart cs := rfl
  rw [← ofChars_trimStart l (' ' :: cs), gone, ofChars_trimStart]

theorem ofChars_behind_cons (l : Lettering) (piece : List Char) (pieces : List (List Char)) :
    ofChars l (behind (piece :: pieces)) = ofChars l (piece ++ behind pieces) := ofChars_blank l _

/-- A token that is read by itself, in front of other tokens. -/
theorem Respaces.cons (others : Respaces l tokens)
    (first : ∀ piece, SpelledAs l token piece → ∀ pieces, List.Forall₂ (SpelledAs l) tokens pieces →
      Reads l piece [token] (behind pieces)) : Respaces l (token :: tokens) := by
  intro _ h
  obtain ⟨piece, pieces, spelled, each, rfl⟩ := List.forall₂_cons_left_iff.1 h
  rw [ofChars_behind_cons, first piece spelled pieces each, others pieces each]
  rfl

/-- Only the imaginary unit can be written in more than one way. -/
theorem SpelledAs.eq (h : SpelledAs l token piece) (other : token ≠ .imaginaryOne) :
    piece = token.spelling l := h.resolve_right fun marker => other marker.1

/-- The imaginary unit is written as one letter. -/
theorem SpelledAs.exists_glyph (h : SpelledAs l .imaginaryOne piece) :
    ∃ c, piece = [c] ∧ l.isGlyph c = true := by
  rcases h with rfl | ⟨-, lower⟩
  · exact ⟨_, rfl, isGlyph_glyph l⟩
  · obtain ⟨c, rfl, letter⟩ := List.map_eq_singleton_iff.1 lower
    exact ⟨c, rfl, beq_iff_eq.2 letter⟩

/-- A token that is always written in its own spelling, which is read in front of a blank. -/
theorem Respaces.cons_spelling (others : Respaces l tokens) (other : token ≠ .imaginaryOne)
    (first : ∀ rest, Parted rest → Reads l (token.spelling l) [token] rest) :
    Respaces l (token :: tokens) := by
  refine others.cons fun piece spelled pieces _ => ?_
  rw [spelled.eq other]
  exact first _ (parted_behind pieces)

/-- The imaginary unit is scanned behind a blank, whichever of its letters it is written with. -/
theorem Respaces.imaginaryOne (others : Respaces l tokens) :
    Respaces l (.imaginaryOne :: tokens) := by
  refine others.cons fun piece spelled pieces _ => ?_
  obtain ⟨c, rfl, glyph⟩ := spelled.exists_glyph
  exact reads_glyph glyph (parted_behind pieces).not_continuesName

/-- A conversion of units is scanned with blanks around its five tokens. -/
theorem Respaces.conversion {source target : String} (others : Respaces l tokens)
    (hs : IsUnit source) (ht : IsUnit target) :
    Respaces l (.openSquare :: .unit source :: .arrow :: .unit target :: .closeSquare :: tokens) := by
  intro _ h
  obtain ⟨_, _, opened, inside, rfl⟩ := List.forall₂_cons_left_iff.1 h
  obtain ⟨_, _, first, afterSource, rfl⟩ := List.forall₂_cons_left_iff.1 inside
  obtain ⟨_, _, arrow, afterArrow, rfl⟩ := List.forall₂_cons_left_iff.1 afterSource
  obtain ⟨_, _, second, afterTarget, rfl⟩ := List.forall₂_cons_left_iff.1 afterArrow
  obtain ⟨_, pieces, closed, each, rfl⟩ := List.forall₂_cons_left_iff.1 afterTarget
  rw [opened.eq nofun, first.eq nofun, arrow.eq nofun, second.eq nofun, closed.eq nofun]
  have read : Reads l _ _ (behind pieces) := reads_units hs ht
  rw [Reads, others pieces each] at read
  rw [ofChars_behind_cons]
  simpa [behind, spelling, Except.map] using read

/-! ## The whole text -/

/-- A text that is scanned has a first step, and what is left after it is scanned too. -/
theorem exists_scanStep_of_ofChars (scanned : ofChars l (c :: cs) = .ok tokens) :
    ∃ first rest others, scanStep l c cs = .ok (first, rest) ∧ ofChars l rest = .ok others ∧
      tokens = first ++ others := by
  obtain ⟨⟨first, rest⟩, step, -⟩ := bind_eq_ok.1 scanned
  rw [ofChars_step step] at scanned
  cases later : ofChars l rest with
  | error error =>
    rw [later] at scanned
    cases scanned
  | ok others =>
    rw [later] at scanned
    exact ⟨first, rest, others, step, later, (Except.ok.inj scanned).symm⟩

/-- Where no exponent is taken, none starts. -/
theorem startsExponent_of_scanExponent {mantissa : List Char}
    (h : scanExponent mantissa cs = .ok ([], rest)) : rest = cs ∧ startsExponent cs = false := by
  unfold scanExponent at h
  unfold startsExponent
  cases found : Text.trimStart cs with
  | nil =>
    rw [found] at h
    cases h
    exact ⟨rfl, rfl⟩
  | cons e after =>
    rw [found] at h
    dsimp only at h
    split at h
    · split at h <;> cases h
    · rename_i none
      cases h
      exact ⟨rfl, Bool.eq_false_iff.2 none⟩

/-- What is found behind an opening square bracket can be written with blanks. -/
theorem respaces_scanConversion {first others : List Token}
    (h : scanConversion cs = .ok (first, rest)) (later : Respaces l others) :
    Respaces l (first ++ others) := by
  obtain ⟨⟨source, afterSource⟩, first, h⟩ := bind_eq_ok.1 h
  dsimp only at h
  split at h
  · obtain ⟨⟨target, afterTarget⟩, second, h⟩ := bind_eq_ok.1 h
    dsimp only at h
    split at h
    · cases h
      exact later.conversion (isUnit_of_scanUnit first) (isUnit_of_scanUnit second)
    · cases h
  · cases h

section

variable (shorter : ∀ cs' tokens', cs'.length ≤ cs.length → ofChars l cs' = .ok tokens' →
  Respaces l tokens')

include shorter

/-- A number stands in front of the tokens that are read behind it, a marker among them. -/
theorem respaces_scanNumber {first others : List Token}
    (starts : (c.isDigit || l.isSeparator c) = true)
    (h : scanNumber l (c :: cs) = .ok (first, rest)) (later : ofChars l rest = .ok others) :
    Respaces l (first ++ others) := by
  obtain ⟨⟨mantissa, left⟩, whole, h⟩ := bind_eq_ok.1 h
  obtain ⟨⟨exponent, after⟩, power, h⟩ := bind_eq_ok.1 h
  have found : (.number (String.ofList (mantissa ++ exponent)) :: (scanMarker l after).1,
      (scanMarker l after).2) = (first, rest) := Except.ok.inj h
  obtain ⟨rfl, rfl⟩ := Prod.mk.inj found
  have scanned : ofChars l after = .ok ((scanMarker l after).1 ++ others) := by
    rw [← ofChars_scanMarker, later]
    rfl
  have less : after.length ≤ cs.length :=
    ((scanExponent_suffix power).trans (scanMantissa_suffix starts whole)).length_le
  refine (shorter after _ less scanned).cons fun piece spelled pieces each => ?_
  rw [spelled.eq nofun, spelling, String.toList_ofList]
  refine reads_numeral starts whole power (parted_behind pieces) ?_
  rintro rfl
  obtain ⟨rfl, none⟩ := startsExponent_of_scanExponent power
  rw [startsExponent_behind scanned each, none]

/-- The tokens of a step, and those of the rest of the text. -/
theorem respaces_scanStep {first others : List Token} (step : scanStep l c cs = .ok (first, rest))
    (later : ofChars l rest = .ok others) : Respaces l (first ++ others) := by
  have behind := shorter rest others (scanStep_suffix step).length_le later
  have whole := step
  unfold scanStep at step
  split at step
  · cases step
    exact behind.cons_spelling nofun fun rest _ => reads_assign _
  · split at step
    · exact respaces_scanConversion step behind
    · split at step
      · rename_i token operator
        cases step
        have spelled : token.spelling l = [c] ∧ token ≠ .imaginaryOne := by
          unfold operator? at operator
          split at operator <;> cases operator <;> exact ⟨rfl, nofun⟩
        refine behind.cons_spelling spelled.2 fun rest parted => ?_
        rw [spelled.1]
        exact reads_operator operator parted
      · split at step
        · cases step
          have name := spells_of_mem_scanStep whole List.mem_cons_self
          exact behind.cons_spelling nofun fun rest parted => reads_name name parted
        · split at step
          · cases step
            exact behind.imaginaryOne
          · split at step
            · rename_i starts
              exact respaces_scanNumber shorter starts step later
            · split at step
              · cases step
                exact behind
              · cases step

end

/-- The tokens of a text are scanned again when they are written with blanks between them. -/
theorem respaces_of_ofChars (scanned : ofChars l cs = .ok tokens) : Respaces l tokens := by
  induction length : cs.length using Nat.strong_induction_on generalizing cs tokens with
  | h n ih =>
    cases cs with
    | nil =>
      cases scanned
      exact respaces_nil
    | cons c cs =>
      obtain ⟨first, rest, others, step, later, rfl⟩ := exists_scanStep_of_ofChars scanned
      refine respaces_scanStep (fun cs' tokens' less scanned' => ?_) step later
      rw [List.length_cons] at length
      exact ih cs'.length (by omega) scanned' rfl

/-- Blanks between the pieces are blanks in front of all of them but the first. -/
theorem intercalate_cons (piece : List Char) (pieces : List (List Char)) :
    [' '].intercalate (piece :: pieces) = piece ++ behind pieces := by
  induction pieces generalizing piece with
  | nil => simp [List.intercalate, behind]
  | cons next rest ih =>
    rw [behind, List.flatMap_cons, List.cons_append, ← behind, ← ih next]
    simp [List.intercalate]

/-- It makes no difference whether the first piece has a blank in front of it too. -/
theorem ofChars_intercalate (l : Lettering) (pieces : List (List Char)) :
    ofChars l ([' '].intercalate pieces) = ofChars l (behind pieces) := by
  cases pieces with
  | nil => rfl
  | cons piece pieces => rw [intercalate_cons, ofChars_behind_cons]

/-- Every token is spelled by its own spelling. -/
theorem forall₂_spelling (l : Lettering) (tokens : List Token) :
    List.Forall₂ (SpelledAs l) tokens (tokens.map (spelling l)) := by
  rw [List.forall₂_map_right_iff]
  exact List.forall₂_same.2 fun _ _ => .inl rfl

/-- Blanks between tokens make no difference: the tokens of a text, with single blanks between their
spellings, are a text with the same tokens. So are they if capitals stand for the imaginary unit. -/
theorem scan_spaced {f : ComplexFormat} {text : String} (h : scan f.lettering text = .ok tokens) :
    scan f.lettering (String.ofList ([' '].intercalate (tokens.map (spelling f.lettering)))) =
      .ok tokens ∧
    ∀ pieces, List.Forall₂ (fun token piece => piece = token.spelling f.lettering ∨
        token = .imaginaryOne ∧ piece.map Char.toLower = token.spelling f.lettering) tokens pieces →
      scan f.lettering (String.ofList ([' '].intercalate pieces)) = .ok tokens := by
  have each : ∀ pieces, List.Forall₂ (SpelledAs f.lettering) tokens pieces →
      scan f.lettering (String.ofList ([' '].intercalate pieces)) = .ok tokens := by
    intro pieces spelled
    rw [scan_ofList, ofChars_intercalate]
    exact respaces_of_ofChars h pieces spelled
  exact ⟨each _ (forall₂_spelling f.lettering tokens), each⟩

/-- Names that begin like an exponent or with the letter of the imaginary unit, and a letter between
two numbers. -/
theorem scan_spaced_exponents :
    let f : ComplexFormat := ⟨⟨25, .general, .upper, .comma⟩, .j⟩
    let text := "2ee3 +7e jet*=2J3,5 E - 1 j[ mi/h->m]"
    let tokens : List Token := [.number "2", .identifier "ee3", .plus, .number "7", .identifier "e",
      .identifier "jet", .assign .mul, .number "2", .imaginaryOne, .number "3,5E-1", .imaginaryOne,
      .openSquare, .unit "mi/h", .arrow, .unit "m", .closeSquare]
    scan f.lettering text = .ok tokens ∧
      [' '].intercalate (tokens.map (spelling f.lettering)) =
        "2 ee3 + 7 e jet *= 2 j 3,5E-1 j [ mi/h -> m ]".toList ∧
      scan f.lettering (String.ofList ([' '].intercalate (tokens.map (spelling f.lettering)))) =
        .ok tokens := by
  intro f text tokens
  have scanned : scan f.lettering text = .ok tokens := by decide +kernel
  exact ⟨scanned, by decide +kernel, (scan_spaced scanned).1⟩

end Calculator.Token
