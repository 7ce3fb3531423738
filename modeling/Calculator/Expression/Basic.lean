import Calculator.Token.Basic

/-!
# Expressions

The trees of the expression grammar. A tree keeps every bracket and every sign, so it
spells out the tokens it stands for. The levels of the grammar, from the loosest to
the tightest, are sums, products, powers, unit conversions, signs, and the operands
that these are made of; all binary operations associate to the left.
-/

namespace Calculator

/-- An operation between two operands. -/
inductive BinaryOp where
  | add
  | sub
  | mul
  | div
  | pow
  deriving DecidableEq

/-- The token of an operation. -/
def BinaryOp.token : BinaryOp → Token
  | .add => .plus
  | .sub => .minus
  | .mul => .multiply
  | .div => .divide
  | .pow => .power

/-- A number as it is written: a numeral, the imaginary marker, or both in either order. -/
inductive Literal where
  | numeral (text : String)
  | marker
  | imaginary (text : String) (markerFirst : Bool)
  deriving DecidableEq

/-- The tokens of a number. -/
def Literal.tokens : Literal → List Token
  | .numeral text => [.number text]
  | .marker => [.imaginaryOne]
  | .imaginary text true => [.imaginaryOne, .number text]
  | .imaginary text false => [.number text, .imaginaryOne]

mutual

/-- An expression without assignments. -/
inductive Expr where
  | literal (number : Literal)
  /-- A constant, the last result, or a variable. -/
  | name (text : String)
  | call (function : String) (arguments : Arguments)
  | group (inner : Expr)
  | signed (negative : Bool) (operand : Expr)
  | convert (operand : Expr) (source target : String)
  | binary (op : BinaryOp) (left right : Expr)

/-- The arguments of a call; there is at least one. -/
inductive Arguments where
  | last (argument : Expr)
  | cons (argument : Expr) (rest : Arguments)

end

mutual

/-- The tokens that an expression stands for. -/
def Expr.tokens : Expr → List Token
  | .literal number => number.tokens
  | .name text => [.identifier text]
  | .call function arguments =>
    .identifier function :: .openBracket :: (arguments.tokens ++ [.closeBracket])
  | .group inner => .openBracket :: (inner.tokens ++ [.closeBracket])
  | .signed negative operand => (if negative then .minus else .plus) :: operand.tokens
  | .convert operand source target =>
    operand.tokens ++ [.openSquare, .unit source, .arrow, .unit target, .closeSquare]
  | .binary op left right => left.tokens ++ op.token :: right.tokens

/-- The tokens of arguments with semicolons between them. -/
def Arguments.tokens : Arguments → List Token
  | .last argument => argument.tokens
  | .cons argument rest => argument.tokens ++ .semicolon :: rest.tokens

end

/-- The arguments as a list. -/
def Arguments.toList : Arguments → List Expr
  | .last argument => [argument]
  | .cons argument rest => argument :: rest.toList

/-- A variable that an expression is assigned to, and how. -/
structure Target where
  name : String
  op : AssignOp
  deriving DecidableEq

/-- The tokens of a target. -/
def Target.tokens (target : Target) : List Token := [.identifier target.name, .assign target.op]

end Calculator
