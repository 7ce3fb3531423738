import Calculator.Expression.Error
import Calculator.Token.Basic

/-!
# Scanning

`Token.scan` divides the text of an expression into tokens. At each place an
assignment is tried first, then a unit conversion, an operator, a name, a number and
blanks. A letter of the imaginary unit is a name only with further letters; after a
numeral a letter `e` starts an exponent unless it begins a name. A step leaves a suffix
of the characters after its first one (`scanStep_suffix`), so the bound on the number of
steps is never met (`scanUpTo_eq`).
-/

namespace Calculator.Token

/-- The tokens found at a place, and the characters after them. -/
abbrev Scanned := Except GrammarError (List Token × List Char)

/-! ## Operators -/

/-- An assignment at the front. -/
def assignment? : List Char → Option (AssignOp × List Char)
  | '=' :: rest => some (.set, rest)
  | '+' :: '=' :: rest => some (.add, rest)
  | '-' :: '=' :: rest => some (.sub, rest)
  | '*' :: '=' :: rest => some (.mul, rest)
  | '/' :: '=' :: rest => some (.div, rest)
  | '^' :: '=' :: rest => some (.pow, rest)
  | _ => none

/-- The token of a single character that is an operator, a bracket or a semicolon. -/
def operator? : Char → Option Token
  | '+' => some .plus
  | '-' => some .minus
  | '*' => some .multiply
  | '/' => some .divide
  | '^' => some .power
  | '(' => some .openBracket
  | ')' => some .closeBracket
  | ';' => some .semicolon
  | _ => none

/-! ## Unit conversions -/

/-- The name of a unit, with blanks around it. -/
def scanUnit (cs : List Char) : Except GrammarError (List Char × List Char) :=
  let start := Text.trimStart cs
  let name := start.takeWhile isUnitChar
  if name.isEmpty then .error .conversionForm
  else .ok (name, Text.trimStart (start.dropWhile isUnitChar))

/-- What follows an opening square bracket: a unit, an arrow, a unit and the closing bracket. -/
def scanConversion (cs : List Char) : Scanned := do
  let (source, rest) ← scanUnit cs
  match rest with
  | '-' :: '>' :: rest =>
    let (target, rest) ← scanUnit rest
    match rest with
    | ']' :: rest =>
      return ([.openSquare, .unit (String.ofList source), .arrow, .unit (String.ofList target),
        .closeSquare], rest)
    | _ => throw .conversionForm
  | _ => throw .conversionForm

/-! ## Names -/

/-- A letter of the imaginary unit starts a name if a character of a name other than a digit
follows. -/
def continuesName : List Char → Bool
  | [] => false
  | c :: _ => !c.isDigit && isNameChar c

/-- A name starts with this character before these. -/
def startsName (l : Lettering) (c : Char) (rest : List Char) : Bool :=
  isNameStart c && (!l.isGlyph c || continuesName rest)

/-! ## Numbers -/

/-- Digits with at most one separator among them. -/
def scanMantissa (l : Lettering) (cs : List Char) :
    Except GrammarError (List Char × List Char) :=
  let whole := cs.takeWhile Char.isDigit
  match cs.dropWhile Char.isDigit with
  | [] => .ok (whole, [])
  | c :: rest =>
    if !l.isSeparator c then .ok (whole, c :: rest)
    else
      let text := whole ++ c :: rest.takeWhile Char.isDigit
      let rest := rest.dropWhile Char.isDigit
      if rest.head?.any l.isSeparator || text.length == 1 then
        .error (.invalidNumber (String.ofList text))
      else .ok (text, rest)

/-- What follows a letter `e` makes it the start of an exponent: a sign, a digit, the end, or
anything else that does not continue a name. -/
def exponentFollows (cs : List Char) : Bool :=
  match Text.trimStart cs with
  | [] => true
  | c :: _ => c == '+' || c == '-' || c.isDigit || !isNameChar c

/-- The sign at the front, as it is written. -/
def splitSign : List Char → List Char × List Char
  | '+' :: rest => (['+'], rest)
  | '-' :: rest => (['-'], rest)
  | cs => ([], cs)

/-- The exponent after a mantissa, without the blanks inside it; there need not be one. -/
def scanExponent (mantissa cs : List Char) : Except GrammarError (List Char × List Char) :=
  match Text.trimStart cs with
  | [] => .ok ([], cs)
  | e :: rest =>
    if isExponentMark e && exponentFollows rest then
      let (sign, rest) := splitSign (Text.trimStart rest)
      let rest := Text.trimStart rest
      let ds := rest.takeWhile Char.isDigit
      if ds.isEmpty then .error (.invalidNumber (String.ofList (mantissa ++ e :: sign)))
      else .ok (e :: (sign ++ ds), rest.dropWhile Char.isDigit)
    else .ok ([], cs)

/-- The letter of the imaginary unit after a numeral, unless it begins a name. -/
def scanMarker (l : Lettering) (cs : List Char) : List Token × List Char :=
  match Text.trimStart cs with
  | [] => ([], cs)
  | c :: rest =>
    if l.isGlyph c && !rest.head?.any isNameChar then ([.imaginaryOne], rest) else ([], cs)

/-- A numeral with the marker that may follow it. -/
def scanNumber (l : Lettering) (cs : List Char) : Scanned := do
  let (mantissa, rest) ← scanMantissa l cs
  let (exponent, rest) ← scanExponent mantissa rest
  let (marker, rest) := scanMarker l rest
  return (.number (String.ofList (mantissa ++ exponent)) :: marker, rest)

/-! ## The whole text -/

/-- The tokens at the front of the text `c :: rest`; blanks give none. -/
def scanStep (l : Lettering) (c : Char) (rest : List Char) : Scanned :=
  match assignment? (c :: rest) with
  | some (op, rest) => .ok ([.assign op], rest)
  | none =>
    if c = '[' then scanConversion rest
    else match operator? c with
    | some token => .ok ([token], rest)
    | none =>
      if startsName l c rest then
        .ok ([.identifier (String.ofList (c :: rest.takeWhile isNameChar))],
          rest.dropWhile isNameChar)
      else if l.isGlyph c then .ok ([.imaginaryOne], rest)
      else if c.isDigit || l.isSeparator c then scanNumber l (c :: rest)
      else if Text.isBlank c then .ok ([], Text.trimStart rest)
      else .error (.unknownToken (String.singleton c))

/-- Scans text of at most `limit` characters. -/
def scanUpTo (l : Lettering) : Nat → List Char → Except GrammarError (List Token)
  | _, [] => .ok []
  | 0, _ => .ok []
  | limit + 1, c :: rest => do
    let (tokens, rest) ← scanStep l c rest
    return tokens ++ (← scanUpTo l limit rest)

/-- The tokens of the text of an expression. -/
def scan (l : Lettering) (text : String) : Except GrammarError (List Token) :=
  scanUpTo l text.toList.length text.toList

/-! ## Progress

What a step leaves is a suffix of what follows the character it starts with, so the scan of a text
takes no more steps than the text has characters.
-/

theorem scanUnit_suffix {cs name rest : List Char} (h : scanUnit cs = .ok (name, rest)) :
    rest <:+ cs := by
  simp only [scanUnit] at h
  split at h
  · cases h
  · cases h
    exact ((List.dropWhile_suffix _).trans (List.dropWhile_suffix _)).trans
      (List.dropWhile_suffix _)

theorem scanConversion_suffix {cs rest : List Char} {tokens : List Token}
    (h : scanConversion cs = .ok (tokens, rest)) : rest <:+ cs := by
  obtain ⟨⟨source, afterSource⟩, scanned, h⟩ := bind_eq_ok.1 h
  have first := scanUnit_suffix scanned
  dsimp only at h
  split at h
  · rename_i afterArrow
    obtain ⟨⟨target, afterTarget⟩, scanned, h⟩ := bind_eq_ok.1 h
    have second := scanUnit_suffix scanned
    dsimp only at h
    split at h
    · cases h
      have arrow : afterArrow <:+ '-' :: '>' :: afterArrow := ⟨['-', '>'], rfl⟩
      exact (((List.suffix_cons ..).trans second).trans arrow).trans first
    · cases h
  · cases h

/-- A mantissa that starts with a digit or a separator takes that character. -/
theorem scanMantissa_suffix {l : Lettering} {c : Char} {cs text rest : List Char}
    (starts : c.isDigit || l.isSeparator c)
    (h : scanMantissa l (c :: cs) = .ok (text, rest)) : rest <:+ cs := by
  unfold scanMantissa at h
  by_cases digit : c.isDigit
  · rw [List.dropWhile_cons_of_pos digit] at h
    have left : cs.dropWhile Char.isDigit <:+ cs := List.dropWhile_suffix _
    split at h
    · cases h
      exact List.nil_suffix
    · rename_i d ds after
      rw [after] at left
      split at h
      · cases h
        exact left
      · dsimp only at h
        split at h
        · cases h
        · cases h
          exact (List.dropWhile_suffix _).trans ((List.suffix_cons ..).trans left)
  · have separator : l.isSeparator c := by simpa [digit] using starts
    rw [List.dropWhile_cons_of_neg digit] at h
    simp only [separator, Bool.not_true, Bool.false_eq_true, if_false] at h
    split at h
    · cases h
    · cases h
      exact List.dropWhile_suffix _

theorem splitSign_suffix (cs : List Char) : (splitSign cs).2 <:+ cs := by
  unfold splitSign
  split
  · exact List.suffix_cons ..
  · exact List.suffix_cons ..
  · exact List.suffix_refl _

theorem scanExponent_suffix {mantissa cs exponent rest : List Char}
    (h : scanExponent mantissa cs = .ok (exponent, rest)) : rest <:+ cs := by
  unfold scanExponent at h
  have blanks : Text.trimStart cs <:+ cs := List.dropWhile_suffix _
  split at h
  · cases h
    exact List.suffix_refl _
  · rename_i e after found
    split at h
    · dsimp only at h
      split at h
      · cases h
      · cases h
        have e_gone : after <:+ Text.trimStart cs := found ▸ List.suffix_cons e after
        exact (List.dropWhile_suffix _).trans ((List.dropWhile_suffix _).trans
          ((splitSign_suffix _).trans ((List.dropWhile_suffix _).trans (e_gone.trans blanks))))
    · cases h
      exact List.suffix_refl _

theorem scanMarker_suffix {l : Lettering} {cs rest : List Char} {tokens : List Token}
    (h : scanMarker l cs = (tokens, rest)) : rest <:+ cs := by
  unfold scanMarker at h
  have blanks : Text.trimStart cs <:+ cs := List.dropWhile_suffix _
  split at h
  · cases h
    exact List.suffix_refl _
  · rename_i c after found
    split at h
    · cases h
      exact (found ▸ List.suffix_cons c _ : rest <:+ Text.trimStart cs).trans blanks
    · cases h
      exact List.suffix_refl _

theorem scanNumber_suffix {l : Lettering} {c : Char} {cs rest : List Char} {tokens : List Token}
    (starts : c.isDigit || l.isSeparator c)
    (h : scanNumber l (c :: cs) = .ok (tokens, rest)) : rest <:+ cs := by
  obtain ⟨⟨mantissa, afterMantissa⟩, scanned, h⟩ := bind_eq_ok.1 h
  have first := scanMantissa_suffix starts scanned
  obtain ⟨⟨exponent, afterExponent⟩, scanned, h⟩ := bind_eq_ok.1 h
  have second := scanExponent_suffix scanned
  cases h
  exact ((scanMarker_suffix rfl).trans second).trans first

/-- An assignment is found where it is written. -/
theorem assignment?_eq_some_iff {cs rest : List Char} {op : AssignOp} :
    assignment? cs = some (op, rest) ↔ cs = op.spelling ++ rest := by
  constructor
  · intro h
    unfold assignment? at h
    split at h <;> cases h <;> rfl
  · rintro rfl
    cases op <;> rfl

theorem assignment?_suffix {c : Char} {cs rest : List Char} {op : AssignOp}
    (h : assignment? (c :: cs) = some (op, rest)) : rest <:+ cs := by
  have spelled := assignment?_eq_some_iff.1 h
  cases op <;> cases spelled
  · exact List.suffix_refl _
  all_goals exact List.suffix_cons ..

theorem scanStep_suffix {l : Lettering} {c : Char} {cs rest : List Char} {tokens : List Token}
    (h : scanStep l c cs = .ok (tokens, rest)) : rest <:+ cs := by
  unfold scanStep at h
  split at h
  · rename_i found
    cases h
    exact assignment?_suffix found
  · split at h
    · exact scanConversion_suffix h
    · split at h
      · cases h
        exact List.suffix_refl _
      · split at h
        · cases h
          exact List.dropWhile_suffix _
        · split at h
          · cases h
            exact List.suffix_refl _
          · split at h
            · rename_i starts
              exact scanNumber_suffix starts h
            · split at h
              · cases h
                exact List.dropWhile_suffix _
              · cases h

/-- A limit that is not below the length makes no difference. -/
theorem scanUpTo_eq {l : Lettering} {limit other : Nat} {cs : List Char}
    (h : cs.length ≤ limit) (h' : cs.length ≤ other) :
    scanUpTo l limit cs = scanUpTo l other cs := by
  induction limit generalizing other cs with
  | zero =>
    obtain rfl : cs = [] := List.eq_nil_of_length_eq_zero (Nat.le_zero.1 h)
    cases other <;> rfl
  | succ limit ih =>
    match cs, other, h' with
    | [], 0, _ => rfl
    | [], _ + 1, _ => rfl
    | c :: cs, other + 1, h' =>
      rw [scanUpTo, scanUpTo]
      rcases step : scanStep l c cs with error | ⟨tokens, rest⟩
      · rfl
      · have shorter := (scanStep_suffix step).length_le
        have same : scanUpTo l limit rest = scanUpTo l other rest :=
          ih (by simp only [List.length_cons] at h; omega)
            (by simp only [List.length_cons] at h'; omega)
        change (do return tokens ++ (← scanUpTo l limit rest) : Except _ _) = _
        rw [same]
        rfl

end Calculator.Token
