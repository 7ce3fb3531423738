import Calculator.Expression.Basic
import Calculator.Expression.Error

/-!
# Reading expressions

`Statement.ofTokens` reads the tokens of a line as a chain of assignments and an
expression. Each level of the grammar is a function of the reader for the level below
it; brackets go back to the loosest level. Where the tokens break the grammar, the
reading keeps the expressions that stand complete in front of the fault: they are
evaluated before it is reported.
-/

namespace Calculator

/-- A fault, and the expressions that stand complete in front of it in the order of evaluation. -/
structure Broken where
  complete : List Expr
  fault : GrammarError

/-- The same fault after another complete expression. -/
def Broken.after (e : Expr) (broken : Broken) : Broken :=
  { broken with complete := e :: broken.complete }

/-- What is read at the front of a list of tokens, and the tokens after it. -/
abbrev Reading (α : Type) := Except Broken (α × List Token)

namespace Expr

/-- Nothing that an expression can start with. -/
def missing : Broken := ⟨[], .invalidExpression⟩

/-! ## Operands -/

/-- A number: a numeral, the imaginary marker, or both, but not two markers. -/
def readLiteral : List Token → Reading Expr
  | .imaginaryOne :: .number text :: .imaginaryOne :: _ =>
    .error ⟨[.literal (.numeral text)], .invalidNumber text⟩
  | .imaginaryOne :: .number text :: rest => .ok (.literal (.imaginary text true), rest)
  | .imaginaryOne :: .imaginaryOne :: _ => .error ⟨[], .invalidNumber ""⟩
  | .imaginaryOne :: rest => .ok (.literal .marker, rest)
  | .number text :: .imaginaryOne :: rest => .ok (.literal (.imaginary text false), rest)
  | .number text :: rest => .ok (.literal (.numeral text), rest)
  | _ => .error missing

/-- At most `limit` arguments with semicolons between them. -/
def readArguments (inner : List Token → Reading Expr) : Nat → List Token → Reading Arguments
  | 0, _ => .error missing
  | limit + 1, tokens =>
    match inner tokens with
    | .error broken => .error broken
    | .ok (argument, .semicolon :: rest) =>
      match readArguments inner limit rest with
      | .error broken => .error (broken.after argument)
      | .ok (arguments, rest) => .ok (.cons argument arguments, rest)
    | .ok (argument, rest) => .ok (.last argument, rest)

/-- The arguments of a call and the bracket that closes it. -/
def readCall (inner : List Token → Reading Expr) (function : String) (tokens : List Token) :
    Reading Expr :=
  match readArguments inner tokens.length tokens with
  | .error broken => .error broken
  | .ok (arguments, .closeBracket :: rest) => .ok (.call function arguments, rest)
  | .ok (arguments, _) => .error ⟨arguments.toList, .noClosingBracket⟩

/-- The inside of a bracket and the bracket that closes it. -/
def readGroup (inner : List Token → Reading Expr) (tokens : List Token) : Reading Expr :=
  match inner tokens with
  | .error broken => .error broken
  | .ok (e, .closeBracket :: rest) => .ok (.group e, rest)
  | .ok (e, _) => .error ⟨[e], .noClosingBracket⟩

/-- An operand: brackets, a call, a name or a number. -/
def readOperand (inner : List Token → Reading Expr) : List Token → Reading Expr
  | .openBracket :: rest => readGroup inner rest
  | .identifier function :: .openBracket :: rest => readCall inner function rest
  | .identifier text :: rest => .ok (.name text, rest)
  | tokens => readLiteral tokens

/-! ## Levels -/

/-- Signs in front of an operand. -/
def readSigned (operand : List Token → Reading Expr) : List Token → Reading Expr
  | .minus :: rest => (readSigned operand rest).map fun (e, rest) => (.signed true e, rest)
  | .plus :: rest => (readSigned operand rest).map fun (e, rest) => (.signed false e, rest)
  | tokens => operand tokens

/-- Unit conversions after an operand. -/
def readConversions : Expr → List Token → Reading Expr
  | e, .openSquare :: .unit source :: .arrow :: .unit target :: .closeSquare :: rest =>
    readConversions (.convert e source target) rest
  | e, .openSquare :: _ => .error ⟨[e], .conversionForm⟩
  | e, tokens => .ok (e, tokens)

/-- Operands of one level joined to `left` by its operations, at most `limit` of them. -/
def readChain (op? : Token → Option BinaryOp) (operand : List Token → Reading Expr) :
    Nat → Expr → List Token → Reading Expr
  | limit + 1, left, token :: rest =>
    match op? token with
    | none => .ok (left, token :: rest)
    | some op =>
      match operand rest with
      | .error broken => .error (broken.after left)
      | .ok (right, rest) => readChain op? operand limit (.binary op left right) rest
  | _, left, tokens => .ok (left, tokens)

/-- A level of binary operations over operands of the next level. -/
def readLevel (op? : Token → Option BinaryOp) (operand : List Token → Reading Expr)
    (tokens : List Token) : Reading Expr :=
  match operand tokens with
  | .error broken => .error broken
  | .ok (left, rest) => readChain op? operand rest.length left rest

/-- The operations of sums. -/
def sumOp? : Token → Option BinaryOp
  | .plus => some .add
  | .minus => some .sub
  | _ => none

/-- The operations of products. -/
def productOp? : Token → Option BinaryOp
  | .multiply => some .mul
  | .divide => some .div
  | _ => none

/-- The operation of powers. -/
def powerOp? : Token → Option BinaryOp
  | .power => some .pow
  | _ => none

/-- The level of unit conversions. -/
def readConverted (inner : List Token → Reading Expr) (tokens : List Token) : Reading Expr :=
  match readSigned (readOperand inner) tokens with
  | .error broken => .error broken
  | .ok (e, rest) => readConversions e rest

/-- The level of powers. -/
def readPower (inner : List Token → Reading Expr) : List Token → Reading Expr :=
  readLevel powerOp? (readConverted inner)

/-- The level of products. -/
def readProduct (inner : List Token → Reading Expr) : List Token → Reading Expr :=
  readLevel productOp? (readPower inner)

/-- The level of sums. -/
def readSum (inner : List Token → Reading Expr) : List Token → Reading Expr :=
  readLevel sumOp? (readProduct inner)

/-- An expression with fewer than `depth` brackets around any part of it. -/
def readWithin : Nat → List Token → Reading Expr
  | 0, _ => .error missing
  | depth + 1, tokens => readSum (readWithin depth) tokens

/-- The expression at the front of a list of tokens. -/
def read (tokens : List Token) : Reading Expr := readWithin (tokens.length + 1) tokens

end Expr

/-- A line as it is read: the variables assigned to, the expression, and the complaint about tokens
after it. -/
structure Statement where
  targets : List Target
  body : Except Broken Expr
  surplus : Option GrammarError

namespace Statement

/-- The assignments at the front of a list of tokens. -/
def takeTargets : List Token → List Target × List Token
  | .identifier name :: .assign op :: rest =>
    let (targets, rest) := takeTargets rest
    (⟨name, op⟩ :: targets, rest)
  | tokens => ([], tokens)

/-- The complaint about tokens after a complete expression. -/
def surplusError : List Token → Option GrammarError
  | [] => none
  | .closeBracket :: _ => some .tooManyClosingBrackets
  | _ => some .invalidExpression

/-- Reads the tokens of a line. The letter of the imaginary unit cannot be assigned to. -/
def ofTokens (l : Lettering) (tokens : List Token) : Statement :=
  let (targets, rest) := takeTargets tokens
  match rest with
  | .imaginaryOne :: .assign _ :: _ =>
    let glyph := String.singleton l.imaginaryUnit.glyph
    { targets, body := .error ⟨[], .invalidVariableName glyph⟩, surplus := none }
  | _ =>
    match Expr.read rest with
    | .error broken => { targets, body := .error broken, surplus := none }
    | .ok (e, rest) => { targets, body := .ok e, surplus := surplusError rest }

end Statement

end Calculator
