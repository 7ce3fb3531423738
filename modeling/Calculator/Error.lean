import Calculator.Precision.Basic

/-!
# Numeric errors

An arithmetic operation fails for a cause of its own, and a function rejects an
argument outside its domain. Every cause has a fixed code, for programs that read
the answer, and a message for people.
-/

namespace Calculator

/-- The failure of an arithmetic operation. -/
inductive ArithmeticError where
  | divisionByZero
  | divisionImpossible
  | overflow
  | underflow
  | conversionImpossible
  | fractionalOperand
  | unknown
  deriving DecidableEq

namespace ArithmeticError

/-- The failure that a condition of a primitive amounts to. -/
def ofCondition : Condition → ArithmeticError
  | .divisionByZero | .divisionUndefined => .divisionByZero
  | .divisionImpossible => .divisionImpossible
  | .overflow => .overflow
  | .underflow => .underflow
  | .conversionSyntax => .conversionImpossible
  | .invalidOperation | .widthExceeded => .unknown

def code : ArithmeticError → String
  | .divisionByZero => "DIV_ZERO"
  | .divisionImpossible => "DIV_IMPOSSIBLE"
  | .overflow => "OVERFLOW"
  | .underflow => "UNDERFLOW"
  | .conversionImpossible => "CONVERSION_IMPOSSIBLE"
  | .fractionalOperand => "FRACTIONAL_OPERAND"
  | .unknown => "ARITHMETIC"

def message : ArithmeticError → String
  | .divisionByZero => "Division by zero"
  | .divisionImpossible => "Division impossible"
  | .overflow => "Arithmetic overflow"
  | .underflow => "Arithmetic underflow"
  | .conversionImpossible => "Arithmetic conversion impossible"
  | .fractionalOperand => "Invalid operation on fractional number"
  | .unknown => "Unknown arithmetic error"

end ArithmeticError

/-- The answer of a primitive with its condition told as a failure. -/
def reported (answer : Except Condition α) : Except ArithmeticError α :=
  answer.mapError .ofCondition

/-- Two steps one after the other succeed when both do. -/
theorem bind_eq_ok {x : Except ε α} {f : α → Except ε β} {b : β} :
    x >>= f = .ok b ↔ ∃ a, x = .ok a ∧ f a = .ok b := by
  cases x <;> simp [bind, Except.bind]

/-- A mapped answer succeeds when the answer does. -/
theorem map_eq_ok {x : Except ε α} {f : α → β} {b : β} :
    x.map f = .ok b ↔ ∃ a, x = .ok a ∧ f a = b := by
  cases x <;> simp [Except.map]

/-- Why a function rejects its argument. -/
inductive InvalidReason where
  | negative
  | zeroOrNegative
  | power
  | factorial
  | tangent
  | cotangent
  | arcsine
  | arccosine
  | hyperbolicTangent
  | hyperbolicCotangent
  | complexAngle
  | argumentCount
  deriving DecidableEq

/-- The description of a reason, as it stands in a message. -/
def InvalidReason.describe : InvalidReason → String
  | .negative => "negative number"
  | .zeroOrNegative => "zero or negative number"
  | .power => "zero or negative number in negative degree"
  | .factorial => "negative, fractional or complex number"
  | .tangent => "cos(arg) = 0"
  | .cotangent => "sin(arg) = 0"
  | .arcsine | .arccosine => "abs(arg) > 1"
  | .hyperbolicTangent => "cosh(arg) = 0"
  | .hyperbolicCotangent => "sinh(arg) = 0"
  | .complexAngle => "complex angle in degrees or grads"
  | .argumentCount => "wrong number of arguments"

/-- The failure of a mathematical function. -/
inductive MathError where
  | arithmetic (error : ArithmeticError)
  | invalidArgument (function : String) (reason : InvalidReason)
  deriving DecidableEq

namespace MathError

/-- The same failure, told of another function. -/
def renamed (function : String) : MathError → MathError
  | .invalidArgument _ reason => .invalidArgument function reason
  | error => error

def code : MathError → String
  | .arithmetic error => error.code
  | .invalidArgument _ _ => "INVALID_ARGUMENT"

def message : MathError → String
  | .arithmetic error => error.message
  | .invalidArgument function reason =>
    s!"Invalid argument of function '{function}' ({reason.describe})"

end MathError

instance : MonadLift (Except ArithmeticError) (Except MathError) :=
  ⟨fun answer => answer.mapError .arithmetic⟩

end Calculator
