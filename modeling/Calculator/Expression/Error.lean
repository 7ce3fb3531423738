import Calculator.Measure.Conversion

/-!
# Errors of an evaluation

An evaluation fails for a numeric cause or because the text is not an expression.
Both kinds have fixed codes and messages.
-/

namespace Calculator

/-- Why a text is not an expression that can be evaluated. -/
inductive GrammarError where
  | noResult
  | unknownToken (text : String)
  | invalidNumber (text : String)
  | invalidExpression
  | noClosingBracket
  | tooManyClosingBrackets
  | unknownFunction (name : String)
  | unknownVariable (name : String)
  | invalidVariableName (name : String)
  | conversionForm
  | unknownUnit (name : String)
  | unknownConversion (conversion : String)
  | complexConversion (conversion : String)
  deriving DecidableEq

namespace GrammarError

def code : GrammarError → String
  | .noResult => "NO_RESULT"
  | .unknownToken _ => "UNKNOWN_TOKEN"
  | .invalidNumber _ => "INVALID_NUMBER"
  | .invalidExpression => "INVALID_EXPRESSION"
  | .noClosingBracket => "NO_CLOSING_BRACKET"
  | .tooManyClosingBrackets => "TOO_MANY_CLOSING_BRACKETS"
  | .unknownFunction _ => "UNKNOWN_FUNCTION"
  | .unknownVariable _ => "UNKNOWN_VARIABLE"
  | .invalidVariableName _ => "INVALID_VARIABLE_NAME"
  | .conversionForm => "UNIT_SYNTAX"
  | .unknownUnit _ => "UNKNOWN_UNIT"
  | .unknownConversion _ => "UNKNOWN_CONVERSION"
  | .complexConversion _ => "COMPLEX_CONVERSION"

def message : GrammarError → String
  | .noResult => "No result of previous calculations"
  | .unknownToken text => s!"Unknown token '{text}' in expression"
  | .invalidNumber _ => "Incorrect number"
  | .invalidExpression => "Incorrect expression"
  | .noClosingBracket => "No closing bracket"
  | .tooManyClosingBrackets => "Too many closing brackets"
  | .unknownFunction name => s!"Unknown function '{name}'"
  | .unknownVariable name => s!"Unknown variable '{name}'"
  | .invalidVariableName _ => "Incorrect name of variable"
  | .conversionForm => "Incorrect unit conversion syntax"
  | .unknownUnit name => s!"Unknown unit '{name}'"
  | .unknownConversion conversion => s!"There is no unit conversion '{conversion}'"
  | .complexConversion conversion => s!"Complex argument in unit conversion '{conversion}'"

/-- The piece of text that the error is about, if there is one. -/
def subject? : GrammarError → Option String
  | .unknownToken text | .invalidNumber text => some text
  | .unknownFunction name | .unknownVariable name | .invalidVariableName name
  | .unknownUnit name => some name
  | .unknownConversion conversion | .complexConversion conversion => some conversion
  | .noResult | .invalidExpression | .noClosingBracket | .tooManyClosingBrackets
  | .conversionForm => none

end GrammarError

/-- The failure of an evaluation. -/
inductive EvalError where
  | math (error : MathError)
  | grammar (error : GrammarError)
  deriving DecidableEq

namespace EvalError

def code : EvalError → String
  | .math error => error.code
  | .grammar error => error.code

def message : EvalError → String
  | .math error => error.message
  | .grammar error => error.message

/-- A failed conversion inside an expression: unknown units are faults of the text. -/
def ofUnitError : UnitError → EvalError
  | .unknownUnit name => .grammar (.unknownUnit name)
  | .unknownConversion source target => .grammar (.unknownConversion s!"{source}->{target}")
  | .arithmetic error => .math (.arithmetic error)

end EvalError

instance : MonadLift (Except MathError) (Except EvalError) :=
  ⟨fun answer => answer.mapError .math⟩

instance : MonadLift (Except GrammarError) (Except EvalError) :=
  ⟨fun answer => answer.mapError .grammar⟩

instance : MonadLift (Except UnitError) (Except EvalError) :=
  ⟨fun answer => answer.mapError .ofUnitError⟩

end Calculator
