import Calculator.Expression.OfTokens
import Calculator.Proofs.Token.Case

/-!
# Letter case in expressions

A reader looks at the kinds of tokens and not at the texts in them. So the tokens of a line in small
letters are read as the statement of the line in small letters, with the same fault if they break
the grammar, after the same expressions.
-/

namespace Calculator

/-! ## Trees in small letters -/

/-- The number in small letters. -/
def Literal.foldCase : Literal → Literal
  | .numeral text => .numeral (Text.foldCase text)
  | .marker => .marker
  | .imaginary text markerFirst => .imaginary (Text.foldCase text) markerFirst

mutual

/-- The expression in small letters. -/
def Expr.foldCase : Expr → Expr
  | .literal number => .literal number.foldCase
  | .name text => .name (Text.foldCase text)
  | .call function arguments => .call (Text.foldCase function) arguments.foldCase
  | .group inner => .group inner.foldCase
  | .signed negative operand => .signed negative operand.foldCase
  | .convert operand source target =>
    .convert operand.foldCase (Text.foldCase source) (Text.foldCase target)
  | .binary op left right => .binary op left.foldCase right.foldCase

/-- The arguments in small letters. -/
def Arguments.foldCase : Arguments → Arguments
  | .last argument => .last argument.foldCase
  | .cons argument rest => .cons argument.foldCase rest.foldCase

end

theorem Arguments.toList_foldCase :
    ∀ arguments : Arguments, arguments.foldCase.toList = arguments.toList.map Expr.foldCase
  | .last _ => rfl
  | .cons _ rest => by
    rw [Arguments.foldCase, toList, toList, List.map_cons, rest.toList_foldCase]

/-- The fault in small letters. -/
def Broken.foldCase (broken : Broken) : Broken :=
  ⟨broken.complete.map Expr.foldCase, broken.fault.foldCase⟩

/-- The target in small letters. -/
def Target.foldCase (target : Target) : Target := ⟨Text.foldCase target.name, target.op⟩

/-- The statement in small letters. -/
def Statement.foldCase (s : Statement) : Statement :=
  { targets := s.targets.map Target.foldCase,
    body := (s.body.mapError Broken.foldCase).map Expr.foldCase,
    surplus := s.surplus.map GrammarError.foldCase }

/-! ## Readers -/

namespace Expr

variable {α : Type}

/-- What is read in small letters, with the rest of the tokens. -/
def foldReading (f : α → α) (reading : Reading α) : Reading α :=
  (reading.mapError Broken.foldCase).map (Prod.map f (List.map Token.foldCase))

/-- A reading that succeeds, in small letters. -/
theorem foldReading_ok (f : α → α) (a : α) (rest : List Token) :
    foldReading f (.ok (a, rest)) = .ok (f a, rest.map Token.foldCase) := rfl

/-- The reader takes tokens in small letters as it takes the tokens. -/
def CaseBlind (f : α → α) (reader : List Token → Reading α) : Prop :=
  ∀ tokens, reader (tokens.map Token.foldCase) = foldReading f (reader tokens)

/-- Numbers are read from the kinds of their tokens. -/
theorem caseBlind_readLiteral : CaseBlind foldCase readLiteral := by
  intro tokens
  -- A number has at most three tokens; the kinds of these decide.
  rcases tokens with _ | ⟨first, _ | ⟨second, _ | ⟨third, rest⟩⟩⟩
  · rfl
  · cases first <;> rfl
  · cases first <;> first | rfl | (cases second <;> rfl)
  · cases first <;> first | rfl | (cases second <;> first | rfl | (cases third <;> rfl))

section

variable {inner operand : List Token → Reading Expr} {op? : Token → Option BinaryOp}

/-- Arguments are read alike where their expressions are. -/
theorem caseBlind_readArguments (blind : CaseBlind foldCase inner) (limit : Nat) :
    CaseBlind Arguments.foldCase (readArguments inner limit) := by
  induction limit with
  | zero => exact fun _ => rfl
  | succ limit ih =>
    intro tokens
    rw [readArguments, blind, readArguments]
    rcases inner tokens with broken | ⟨argument, rest⟩
    · rfl
    · rcases rest with _ | ⟨token, rest⟩
      · rfl
      · cases token with
        | semicolon =>
          have semicolon : Token.foldCase .semicolon = .semicolon := rfl
          rw [foldReading_ok, List.map_cons, semicolon]
          dsimp only
          rw [ih rest]
          cases readArguments inner limit rest <;> rfl
        | _ => rfl

/-- A call keeps the name of its function, in small letters. -/
theorem caseBlind_readCall (blind : CaseBlind foldCase inner) (function : String)
    (tokens : List Token) :
    readCall inner (Text.foldCase function) (tokens.map Token.foldCase) =
      foldReading foldCase (readCall inner function tokens) := by
  rw [readCall, List.length_map, caseBlind_readArguments blind, readCall]
  rcases readArguments inner tokens.length tokens with broken | ⟨arguments, rest⟩
  · rfl
  · have fault : foldReading foldCase (.error ⟨arguments.toList, .noClosingBracket⟩) =
        .error ⟨arguments.foldCase.toList, .noClosingBracket⟩ := by
      rw [arguments.toList_foldCase]
      rfl
    rcases rest with _ | ⟨token, rest⟩
    · exact fault.symm
    · cases token with
      | closeBracket => rfl
      | _ => exact fault.symm

/-- Brackets are read alike where the expression inside is. -/
theorem caseBlind_readGroup (blind : CaseBlind foldCase inner) :
    CaseBlind foldCase (readGroup inner) := by
  intro tokens
  rw [readGroup, blind, readGroup]
  rcases inner tokens with broken | ⟨e, rest⟩
  · rfl
  · rcases rest with _ | ⟨token, rest⟩
    · rfl
    · cases token <;> rfl

/-- An operand is told by its first two tokens, whatever texts they carry. -/
theorem caseBlind_readOperand (blind : CaseBlind foldCase inner) :
    CaseBlind foldCase (readOperand inner) := by
  intro tokens
  rcases tokens with _ | ⟨token, rest⟩
  · rfl
  · have number := caseBlind_readLiteral (token :: rest)
    cases token with
    | openBracket => exact caseBlind_readGroup blind rest
    | identifier name =>
      rcases rest with _ | ⟨token, rest⟩
      · rfl
      · cases token with
        | openBracket => exact caseBlind_readCall blind name rest
        | _ => rfl
    | _ => exact number

/-- Signs carry no text. -/
theorem caseBlind_readSigned (blind : CaseBlind foldCase operand) :
    CaseBlind foldCase (readSigned operand) := by
  intro tokens
  induction tokens with
  | nil => exact blind []
  | cons token rest ih =>
    have unsigned := blind (token :: rest)
    cases token with
    | minus =>
      show (readSigned operand (rest.map Token.foldCase)).map _ = _
      rw [ih, readSigned]
      cases readSigned operand rest <;> rfl
    | plus =>
      show (readSigned operand (rest.map Token.foldCase)).map _ = _
      rw [ih, readSigned]
      cases readSigned operand rest <;> rfl
    | _ => exact unsigned

/-- The units of conversions go over to small letters with the operand. -/
theorem caseBlind_readConversions (e : Expr) (tokens : List Token) :
    readConversions e.foldCase (tokens.map Token.foldCase) =
      foldReading foldCase (readConversions e tokens) := by
  rcases tokens with _ | ⟨token, rest⟩
  · rfl
  · cases token with
    | openSquare =>
      -- A conversion has four more tokens after the bracket; the kinds of these decide.
      rcases rest with _ | ⟨first, _ | ⟨second, _ | ⟨third, _ | ⟨fourth, rest⟩⟩⟩⟩
      · rfl
      · cases first <;> rfl
      · cases first <;> first | rfl | (cases second <;> rfl)
      · cases first <;> first | rfl | (cases second <;> first | rfl | (cases third <;> rfl))
      · cases first with
        | unit source =>
          cases second with
          | arrow =>
            cases third with
            | unit target =>
              cases fourth with
              | closeSquare => exact caseBlind_readConversions (.convert e source target) rest
              | _ => rfl
            | _ => rfl
          | _ => rfl
        | _ => rfl
    | _ => rfl

/-- A chain of operations is read alike where its operands are; its operations carry no text. -/
theorem caseBlind_readChain (sign : ∀ token, op? token.foldCase = op? token)
    (blind : CaseBlind foldCase operand) (limit : Nat) (left : Expr) (tokens : List Token) :
    readChain op? operand limit left.foldCase (tokens.map Token.foldCase) =
      foldReading foldCase (readChain op? operand limit left tokens) := by
  induction limit generalizing left tokens with
  | zero => cases tokens <;> rfl
  | succ limit ih =>
    rcases tokens with _ | ⟨token, rest⟩
    · rfl
    · rw [List.map_cons, readChain, sign, readChain]
      cases op? token with
      | none => rfl
      | some op =>
        dsimp only
        rw [blind]
        rcases operand rest with broken | ⟨right, rest⟩
        · rfl
        · exact ih (.binary op left right) rest

/-- A level of the grammar is read alike where the level below is. -/
theorem caseBlind_readLevel (sign : ∀ token, op? token.foldCase = op? token)
    (blind : CaseBlind foldCase operand) : CaseBlind foldCase (readLevel op? operand) := by
  intro tokens
  rw [readLevel, blind, readLevel]
  rcases operand tokens with broken | ⟨left, rest⟩
  · rfl
  · have chain := caseBlind_readChain sign blind rest.length left rest
    rw [foldReading_ok]
    dsimp only
    rw [List.length_map]
    exact chain

theorem caseBlind_readConverted (blind : CaseBlind foldCase inner) :
    CaseBlind foldCase (readConverted inner) := by
  intro tokens
  rw [readConverted, caseBlind_readSigned (caseBlind_readOperand blind), readConverted]
  rcases readSigned (readOperand inner) tokens with broken | ⟨e, rest⟩
  · rfl
  · exact caseBlind_readConversions e rest

theorem caseBlind_readSum (blind : CaseBlind foldCase inner) :
    CaseBlind foldCase (readSum inner) := by
  have power : CaseBlind foldCase (readPower inner) :=
    caseBlind_readLevel (fun token => by cases token <;> rfl) (caseBlind_readConverted blind)
  have product : CaseBlind foldCase (readProduct inner) :=
    caseBlind_readLevel (fun token => by cases token <;> rfl) power
  exact caseBlind_readLevel (fun token => by cases token <;> rfl) product

end

theorem caseBlind_readWithin (depth : Nat) : CaseBlind foldCase (readWithin depth) := by
  induction depth with
  | zero => exact fun _ => rfl
  | succ depth ih => exact fun tokens => caseBlind_readSum ih tokens

theorem caseBlind_read : CaseBlind foldCase read := by
  intro tokens
  rw [read, List.length_map, caseBlind_readWithin, read]

end Expr

/-! ## Statements -/

namespace Statement

/-- Assignments are told by an identifier and an operator, whatever the name is. -/
theorem takeTargets_foldCase (tokens : List Token) :
    takeTargets (tokens.map Token.foldCase) =
      Prod.map (List.map Target.foldCase) (List.map Token.foldCase) (takeTargets tokens) := by
  rcases tokens with _ | ⟨first, _ | ⟨second, rest⟩⟩
  · rfl
  · cases first <;> rfl
  · cases first with
    | identifier name =>
      cases second with
      | assign op =>
        exact congrArg (Prod.map (Target.mk (Text.foldCase name) op :: ·) id)
          (takeTargets_foldCase rest)
      | _ => rfl
    | _ => rfl

/-- What is left over after a statement is complained of with its text in small letters. -/
theorem surplusError_foldCase (tokens : List Token) :
    surplusError (tokens.map Token.foldCase) =
      (surplusError tokens).map GrammarError.foldCase := by
  rcases tokens with _ | ⟨token, rest⟩
  · rfl
  · cases token <;> rfl

/-- The tokens of a line in small letters are read as its statement in small letters. -/
theorem ofTokens_foldCase (l : Lettering) (tokens : List Token) :
    ofTokens l (tokens.map Token.foldCase) = (ofTokens l tokens).foldCase := by
  rw [ofTokens, takeTargets_foldCase, ofTokens]
  obtain ⟨targets, rest⟩ := takeTargets tokens
  dsimp only [Prod.map]
  rw [Expr.caseBlind_read]
  -- Whatever is read, the first two tokens tell if the imaginary unit is assigned to.
  rcases Expr.read rest with broken | ⟨e, left⟩
  case' ok =>
    rw [Expr.foldReading_ok]
    dsimp only
    rw [surplusError_foldCase]
  all_goals
    rcases rest with _ | ⟨first, rest⟩
    · rfl
    · cases first with
      | imaginaryOne =>
        rcases rest with _ | ⟨second, rest⟩
        · rfl
        · cases second with
          | assign op => cases l.imaginaryUnit <;> rfl
          | _ => rfl
      | _ => rfl

end Statement

end Calculator
