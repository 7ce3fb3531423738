import Calculator.Proofs.Text.Case
import Calculator.Token.Scan

/-!
# Letter case in tokens

A scan commutes with making capitals small: the tokens of the small text are the tokens of the text
in small letters, and its error is the same error about a text in small letters. For every part of
a text is taken by a class of characters, or by a character, that does not see the case of a letter.
-/

namespace Calculator

open Text (small small_cons ofList_small)

/-- The error about a text in small letters. -/
def GrammarError.foldCase : GrammarError → GrammarError
  | .unknownToken text => .unknownToken (Text.foldCase text)
  | .invalidNumber text => .invalidNumber (Text.foldCase text)
  | .unknownFunction name => .unknownFunction (Text.foldCase name)
  | .unknownVariable name => .unknownVariable (Text.foldCase name)
  | .invalidVariableName name => .invalidVariableName (Text.foldCase name)
  | .unknownUnit name => .unknownUnit (Text.foldCase name)
  | .unknownConversion conversion => .unknownConversion (Text.foldCase conversion)
  | .complexConversion conversion => .complexConversion (Text.foldCase conversion)
  | error => error

/-- The token in small letters. -/
def Token.foldCase : Token → Token
  | .number text => .number (Text.foldCase text)
  | .identifier name => .identifier (Text.foldCase name)
  | .unit name => .unit (Text.foldCase name)
  | token => token

namespace Token

variable {α β γ δ : Type}

/-- The answer with `f` applied to its value, and its error in small letters. -/
def folded (f : α → β) (answer : Except GrammarError α) : Except GrammarError β :=
  (answer.mapError GrammarError.foldCase).map f

/-- Answers in small letters are put together to answers in small letters. -/
theorem folded_bind {x : Except GrammarError α} {f : α → β} {g : γ → δ}
    {k : α → Except GrammarError γ} {k' : β → Except GrammarError δ}
    (h : ∀ a, k' (f a) = folded g (k a)) : folded f x >>= k' = folded g (x >>= k) := by
  cases x with
  | error error => rfl
  | ok a => exact h a

/-- Two parts of a text in small letters. -/
abbrev smallParts : List Char × List Char → List Char × List Char := Prod.map small small

/-- The tokens at the front of a text, and the rest of it, in small letters. -/
abbrev smallScanned : List Token × List Char → List Token × List Char :=
  Prod.map (List.map foldCase) small

variable (l : Lettering) (c : Char) (cs : List Char)

/-! ## Classes of characters -/

/-- The imaginary unit may be written as a capital. -/
theorem isGlyph_toLower : l.isGlyph c.toLower = l.isGlyph c := by
  rw [Lettering.isGlyph, Text.toLower_toLower, Lettering.isGlyph]

theorem isSeparator_toLower : l.isSeparator c.toLower = l.isSeparator c := by
  have plain : l.separator.glyph ∉ Text.letters := by cases l.separator <;> decide
  rw [Bool.eq_iff_iff, Lettering.isSeparator, Lettering.isSeparator, beq_iff_eq, beq_iff_eq]
  exact Text.toLower_eq_iff plain

theorem isNameStart_toLower : isNameStart c.toLower = isNameStart c :=
  Text.apply_toLower isNameStart (by decide) c

theorem isNameChar_toLower : isNameChar c.toLower = isNameChar c :=
  Text.apply_toLower isNameChar (by decide) c

theorem isUnitChar_toLower : isUnitChar c.toLower = isUnitChar c :=
  Text.apply_toLower isUnitChar (by decide) c

theorem isExponentMark_toLower : isExponentMark c.toLower = isExponentMark c :=
  Text.apply_toLower isExponentMark (by decide) c

theorem operator?_toLower : operator? c.toLower = operator? c :=
  Text.apply_toLower operator? (by decide) c

variable {l c cs}

/-! ## Operators and unit conversions -/

/-- Assignments are written without letters. -/
theorem assignment?_small :
    assignment? (small cs) = (assignment? cs).map (Prod.map id small) := by
  have plain (op : AssignOp) : op.spelling.all (· ∉ Text.letters) := by cases op <;> decide
  apply Option.ext
  rintro ⟨op, ds⟩
  rw [assignment?_eq_some_iff, Text.small_eq_append (plain op), Option.map_eq_some_iff]
  constructor
  · rintro ⟨rest, found, rfl⟩
    exact ⟨(op, rest), assignment?_eq_some_iff.2 found, rfl⟩
  · rintro ⟨⟨op, rest⟩, found, ⟨⟩⟩
    exact ⟨rest, assignment?_eq_some_iff.1 found, rfl⟩

/-- A unit in small letters is scanned as the unit is, with its name in small letters; errors name
what stands there. -/
theorem scanUnit_small : scanUnit (small cs) = folded smallParts (scanUnit cs) := by
  simp only [scanUnit, Text.trimStart_small, Text.takeWhile_small isUnitChar_toLower,
    Text.dropWhile_small isUnitChar_toLower, List.isEmpty_map]
  split <;> rfl

theorem scanConversion_small :
    scanConversion (small cs) = folded smallScanned (scanConversion cs) := by
  unfold scanConversion
  rw [scanUnit_small]
  apply folded_bind
  rintro ⟨source, rest⟩
  dsimp only [smallParts, Prod.map]
  split
  · rename_i left found
    obtain ⟨rest, rfl, rfl⟩ := (@Text.small_eq_append ['-', '>'] _ _ (by decide)).1 found
    dsimp only [List.cons_append, List.nil_append]
    rw [scanUnit_small]
    apply folded_bind
    rintro ⟨target, rest⟩
    dsimp only [smallParts, Prod.map]
    split
    · rename_i left found
      obtain ⟨rest, rfl, rfl⟩ := (@Text.small_eq_append [']'] _ _ (by decide)).1 found
      simp only [ofList_small]
      rfl
    · rename_i other
      split
      · exact absurd rfl (other _)
      · rfl
  · rename_i other
    split
    · exact absurd rfl (other _)
    · rfl

/-! ## Numbers -/

/-- There are no letters in a mantissa. -/
theorem scanMantissa_small : scanMantissa l (small cs) = folded smallParts (scanMantissa l cs) := by
  unfold scanMantissa
  rw [Text.takeWhile_small Text.isDigit_toLower, Text.dropWhile_small Text.isDigit_toLower]
  cases cs.dropWhile Char.isDigit with
  | nil => rfl
  | cons c rest =>
    rw [small_cons]
    dsimp only
    rw [isSeparator_toLower]
    split
    · rfl
    · simp only [Text.takeWhile_small Text.isDigit_toLower,
        Text.dropWhile_small Text.isDigit_toLower,
        Text.any_head?_small (isSeparator_toLower l), ← List.map_cons, ← List.map_append,
        List.length_map]
      split
      · simp only [ofList_small]
        rfl
      · rfl

/-- The mark of an exponent may be a capital. -/
theorem exponentFollows_small : exponentFollows (small cs) = exponentFollows cs := by
  unfold exponentFollows
  rw [Text.trimStart_small]
  cases Text.trimStart cs with
  | nil => rfl
  | cons c rest =>
    exact Text.apply_toLower (fun c => c == '+' || c == '-' || c.isDigit || !isNameChar c)
      (by decide) c

theorem splitSign_small : splitSign (small cs) = smallParts (splitSign cs) := by
  fun_cases splitSign cs with
  | case1 => rfl
  | case2 => rfl
  | case3 other plus minus =>
    unfold splitSign
    split
    · rename_i found
      obtain ⟨rest, rfl, -⟩ := (@Text.small_eq_append ['+'] _ _ (by decide)).1 found
      exact absurd rfl (plus rest)
    · rename_i found
      obtain ⟨rest, rfl, -⟩ := (@Text.small_eq_append ['-'] _ _ (by decide)).1 found
      exact absurd rfl (minus rest)
    · rfl

/-- The mark is the only letter of an exponent. -/
theorem scanExponent_small {mantissa : List Char} :
    scanExponent (small mantissa) (small cs) = folded smallParts (scanExponent mantissa cs) := by
  unfold scanExponent
  rw [Text.trimStart_small]
  cases Text.trimStart cs with
  | nil => rfl
  | cons e rest =>
    rw [small_cons]
    dsimp only
    rw [isExponentMark_toLower, exponentFollows_small]
    split
    · simp only [Text.trimStart_small, splitSign_small, smallParts, Prod.map,
        Text.takeWhile_small Text.isDigit_toLower,
        Text.dropWhile_small Text.isDigit_toLower, List.isEmpty_map, ← List.map_cons,
        ← List.map_append]
      split
      · simp only [ofList_small]
        rfl
      · rfl
    · rfl

/-- The marker of an imaginary number may be a capital. -/
theorem scanMarker_small : scanMarker l (small cs) = smallScanned (scanMarker l cs) := by
  unfold scanMarker
  rw [Text.trimStart_small]
  cases Text.trimStart cs with
  | nil => rfl
  | cons c rest =>
    rw [small_cons]
    dsimp only
    rw [isGlyph_toLower, Text.any_head?_small isNameChar_toLower]
    split <;> rfl

/-- So numbers are scanned alike. -/
theorem scanNumber_small : scanNumber l (small cs) = folded smallScanned (scanNumber l cs) := by
  unfold scanNumber
  rw [scanMantissa_small]
  apply folded_bind
  rintro ⟨mantissa, rest⟩
  dsimp only [smallParts, Prod.map]
  rw [scanExponent_small]
  apply folded_bind
  rintro ⟨exponent, rest⟩
  dsimp only [smallParts, Prod.map]
  rw [scanMarker_small, ← List.map_append, ofList_small]
  rfl

/-! ## The whole text -/

theorem continuesName_small : continuesName (small cs) = continuesName cs := by
  cases cs with
  | nil => rfl
  | cons c rest =>
    rw [small_cons, continuesName, Text.isDigit_toLower, isNameChar_toLower, continuesName]

/-- A letter begins a name unless it is the marker alone, capital or not. -/
theorem startsName_small : startsName l c.toLower (small cs) = startsName l c cs := by
  rw [startsName, isNameStart_toLower, isGlyph_toLower, continuesName_small, startsName]

/-- Operators have no letters. -/
theorem foldCase_operator {token : Token} (h : operator? c = some token) :
    token.foldCase = token := by
  unfold operator? at h
  split at h <;> cases h <;> rfl

/-- Every step is the step in small letters. -/
theorem scanStep_small :
    scanStep l c.toLower (small cs) = folded smallScanned (scanStep l c cs) := by
  unfold scanStep
  rw [← List.map_cons, assignment?_small]
  cases assignment? (c :: cs) with
  | some found => rfl
  | none =>
    have bracket : c.toLower = '[' ↔ c = '[' := Text.toLower_eq_iff (by decide)
    simp only [Option.map_none, bracket, operator?_toLower, startsName_small, isGlyph_toLower,
      Text.isDigit_toLower, isSeparator_toLower, Text.isBlank_toLower]
    split
    · exact scanConversion_small
    · split
      · rename_i operator
        show Except.ok ([_], small cs) = Except.ok ([Token.foldCase _], small cs)
        rw [foldCase_operator operator]
      · split
        · rw [Text.takeWhile_small isNameChar_toLower,
            Text.dropWhile_small isNameChar_toLower, ← List.map_cons, ofList_small]
          rfl
        · split
          · rfl
          · split
            · exact scanNumber_small
            · split
              · rw [Text.trimStart_small]
                rfl
              · have single : String.singleton c.toLower = Text.foldCase (String.singleton c) := by
                  simp [Text.foldCase]
                rw [single]
                rfl

/-- So the scan is, by induction on its limit. -/
theorem scanUpTo_small {limit : Nat} :
    scanUpTo l limit (small cs) = folded (List.map foldCase) (scanUpTo l limit cs) := by
  induction limit generalizing cs with
  | zero => cases cs <;> rfl
  | succ limit ih =>
    cases cs with
    | nil => rfl
    | cons c cs =>
      rw [small_cons, scanUpTo, scanStep_small, scanUpTo]
      apply folded_bind
      rintro ⟨tokens, rest⟩
      dsimp only [smallScanned, Prod.map]
      rw [ih]
      refine folded_bind fun others => ?_
      rw [← List.map_append]
      rfl

/-- The tokens of a text in small letters are its tokens in small letters. -/
theorem scan_foldCase (l : Lettering) (text : String) :
    scan l (Text.foldCase text) = folded (List.map foldCase) (scan l text) := by
  rw [scan, Text.foldCase, String.toList_ofList, List.length_map, scan, scanUpTo_small]

end Token

end Calculator
