import Calculator.Expression.Evaluation

/-!
# Recursive descent

The grammar as functions that call one another, each at a position among the tokens, and that evaluate
what they read at once. A function either fails or gives a value and the position after what it
has read. Nothing here bounds the recursion: a function is written in terms of the calls that it makes
(`call`), the rounds of its loop are calls as well, and `descend` follows the calls to a depth. It has
no answer where they go deeper, nor where one of them starts behind the last token. That neither
happens is shown in `Calculator.Proofs.Grammar.Advance`, together with the agreement of this descent with
`Statement.run`, which reads a line first and evaluates it then.
-/

namespace Calculator.Descent

/-- The functions that read a part of an expression, the loosest first. -/
inductive Level where
  | sum
  | product
  | power
  | converted
  | signed
  | bracketed
  | call
  | atom
  | number

/-- What can be called: a function, or the next round of its loop with what it has so far. -/
inductive Task where
  | read (level : Level)
  /-- The operations of a level after the value of the operands so far. -/
  | operations (op? : Token → Option BinaryOp) (operand : Level) (left : Complex)
  /-- The conversions after an operand. -/
  | conversions (z : Complex)
  /-- The signs in front of an operand; `negative` tells whether those so far change its sign. -/
  | signs (negative : Bool)
  /-- The next argument of a call after the values of others. -/
  | arguments (function : String) (values : List Complex)

/-- A value and the position after what it was read from, or a failure; none if it is not reached. -/
abbrev Outcome := ExceptT EvalError Option

/-- The outcome of something that comes to an end. -/
def settled {α : Type} (answer : Except EvalError α) : Outcome α := .mk (some answer)

section Functions

variable (ts : List Token) (scope : Scope) (call : Task → Nat → Outcome (Complex × Nat))

/-- Operands of a tighter level with operations between them. -/
def joined (op? : Token → Option BinaryOp) (operand : Level) (p : Nat) :
    Outcome (Complex × Nat) := do
  let (z, p) ← call (.read operand) p
  call (.operations op? operand z) p

/-- The operation at the position and its right operand, or the end of the level. -/
def operations (op? : Token → Option BinaryOp) (operand : Level) (left : Complex) (p : Nat) :
    Outcome (Complex × Nat) :=
  match ts[p]?.bind op? with
  | none => return (left, p)
  | some op => do
    let (right, p) ← call (.read operand) (p + 1)
    let z ← settled (do op.apply left right)
    call (.operations op? operand z) p

/-- A signed operand and the conversions after it. -/
def converted (p : Nat) : Outcome (Complex × Nat) := do
  let (z, p) ← call (.read .signed) p
  call (.conversions z) p

/-- The conversion at the position, which takes five tokens, or the end of the conversions. -/
def conversions (z : Complex) (p : Nat) : Outcome (Complex × Nat) :=
  match ts[p]? with
  | some .openSquare =>
    match ts[p + 1]?, ts[p + 2]?, ts[p + 3]?, ts[p + 4]? with
    | some (.unit source), some .arrow, some (.unit target), some .closeSquare => do
      let z ← settled (convertUnit source target z)
      call (.conversions z) (p + 5)
    | _, _, _, _ => throw (.grammar .conversionForm)
  | _ => return (z, p)

/-- The sign at the position, or the operand. -/
def signs (negative : Bool) (p : Nat) : Outcome (Complex × Nat) :=
  match ts[p]? with
  | some .minus => call (.signs !negative) (p + 1)
  | some .plus => call (.signs negative) (p + 1)
  | _ => do
    let (z, p) ← call (.read .bracketed) p
    return (if negative then -z else z, p)

/-- Brackets around an expression, or a call. -/
def bracketed (p : Nat) : Outcome (Complex × Nat) :=
  match ts[p]? with
  | some .openBracket => do
    let (z, p) ← call (.read .sum) (p + 1)
    if ts[p]? = some .closeBracket then return (z, p + 1)
    throw (.grammar .noClosingBracket)
  | _ => call (.read .call) p

/-- A name with a bracket after it, or an atom. -/
def called (p : Nat) : Outcome (Complex × Nat) :=
  match ts[p]?, ts[p + 1]? with
  | some (.identifier function), some .openBracket => call (.arguments function []) (p + 2)
  | _, _ => call (.read .atom) p

/-- An argument and what comes after it. The function is looked up when its bracket is closed. -/
def arguments (function : String) (values : List Complex) (p : Nat) : Outcome (Complex × Nat) := do
  let (z, p) ← call (.read .sum) p
  let values := values ++ [z]
  match ts[p]? with
  | some .semicolon => call (.arguments function values) (p + 1)
  | some .closeBracket =>
    let z ← settled do (← BuiltIn.find function values.length).apply scope.angleUnit values
    return (z, p + 1)
  | _ => throw (.grammar .noClosingBracket)

/-- A constant, the last result or a variable, or a number. -/
def atom (p : Nat) : Outcome (Complex × Nat) :=
  match ts[p]? with
  | some (.identifier name) => do
    let z ← settled (scope.nameValue name)
    return (z, p + 1)
  | _ => call (.read .number) p

/-- Whether the token stands at the position, and the position after it if it does. -/
def accept (token : Token) (p : Nat) : Bool × Nat :=
  if ts[p]? = some token then (true, p + 1) else (false, p)

/-- The numeral at the position, if there is one. -/
def numeral (p : Nat) : Outcome (Option (String × Decimal) × Nat) :=
  match ts[p]? with
  | some (.number text) => do
    let x ← settled (numeralValue text)
    return (some (text, x), p + 1)
  | _ => return (none, p)

/-- The value of a numeral, or of none, with markers in front of it and behind it. -/
def literalValue : Option (String × Decimal) → Bool → Bool → Except EvalError Complex
  | some (text, _), true, true => throw (.grammar (.invalidNumber text))
  | none, true, true => throw (.grammar (.invalidNumber ""))
  | none, false, false => throw (.grammar .invalidExpression)
  | none, _, _ => return .i
  | some (_, x), false, false => return .ofReal x
  | some (_, x), _, _ => return ⟨.zero, x⟩

/-- A numeral with the imaginary marker in front of it or behind it, or one of them alone. -/
def number (p : Nat) : Outcome (Complex × Nat) := do
  let (leading, p) := accept ts .imaginaryOne p
  let (numeral, p) ← numeral ts p
  let (trailing, p) := accept ts .imaginaryOne p
  let z ← settled (literalValue numeral leading trailing)
  return (z, p)

/-- What is called, in terms of the calls that it makes. -/
def follow : Task → Nat → Outcome (Complex × Nat)
  | .read .sum => joined call Expr.sumOp? .product
  | .read .product => joined call Expr.productOp? .power
  | .read .power => joined call Expr.powerOp? .converted
  | .read .converted => converted call
  | .read .signed => call (.signs false)
  | .read .bracketed => bracketed ts call
  | .read .call => called ts call
  | .read .atom => atom ts scope call
  | .read .number => number ts
  | .operations op? operand left => operations ts call op? operand left
  | .conversions z => conversions ts call z
  | .signs negative => signs ts call negative
  | .arguments function values => arguments ts scope call function values

end Functions

/-- Follows the calls to a depth, as long as none of them starts behind the last token. -/
def descend (ts : List Token) (scope : Scope) : Nat → Task → Nat → Outcome (Complex × Nat)
  | 0, _, _ => .mk none
  | depth + 1, task, p =>
    if p ≤ ts.length then follow ts scope (descend ts scope depth) task p else .mk none

/-- An assignment, or a sum. The name is checked and its variable is looked up before the right side
is read; it is assigned to when the value is there. -/
def assign (l : Lettering) (ts : List Token) (scope : Scope) :
    Nat → Nat → Option (Except EvalError (Complex × Nat) × Variables)
  | 0, _ => none
  | depth + 1, p =>
    if ts.length < p then none
    else match ts[p]?, ts[p + 1]? with
    | some (.identifier name), some (.assign op) =>
      if isReserved name then some (.error (.grammar (.invalidVariableName name)), scope.vars)
      else match Target.current ⟨name, op⟩ scope.vars with
      | .error error => some (.error (.grammar error), scope.vars)
      | .ok current =>
        match assign l ts scope depth (p + 2) with
        | none => none
        | some (.error error, vars) => some (.error error, vars)
        | some (.ok (z, p), vars) =>
          match Target.combine ⟨name, op⟩ current z with
          | .error error => some (.error (.math error), vars)
          | .ok z => some (.ok (z, p), vars.insert name z)
    | some .imaginaryOne, some (.assign _) =>
      let glyph := String.singleton l.imaginaryUnit.glyph
      some (.error (.grammar (.invalidVariableName glyph)), scope.vars)
    | _, _ =>
      match descend ts scope depth (.read .sum) p with
      | none => none
      | some answer => some (answer, scope.vars)

/-- A whole line: an assignment or a sum with nothing after it. -/
def line (l : Lettering) (ts : List Token) (scope : Scope) (depth : Nat) :
    Option (Except EvalError Complex × Variables) :=
  match assign l ts scope depth 0 with
  | none => none
  | some (.error error, vars) => some (.error error, vars)
  | some (.ok (z, p), vars) =>
    match ts[p]? with
    | none => some (.ok z, vars)
    | some .closeBracket => some (.error (.grammar .tooManyClosingBrackets), vars)
    | some _ => some (.error (.grammar .invalidExpression), vars)

end Calculator.Descent
