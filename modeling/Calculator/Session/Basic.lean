import Calculator.Expression.Evaluation
import Calculator.Format.Layout
import Calculator.Token.Scan

/-!
# Sessions

A session remembers the last result, the variables, and the settings: the angle unit
and the format of numbers. Evaluating a text gives its value and the session after it. The
work is done by a `Parser`, which can be set on one text after the other.
-/

namespace Calculator

/-- What the user chooses about a session. -/
structure Settings where
  angleUnit : AngleUnit
  format : ComplexFormat
  deriving DecidableEq

/-- Radians, twenty-five digits, and the letter `i`. -/
def Settings.initial : Settings :=
  { angleUnit := .radians,
    format := { number := .ofPrecision NumberFormat.defaultPrecision, imaginaryUnit := .i } }

/-- The state between evaluations. -/
structure Session where
  result : Option Complex
  vars : Variables
  settings : Settings

namespace Session

/-- A session without result and variables. -/
def withSettings (settings : Settings) : Session :=
  { result := none, vars := .empty, settings }

/-- A new session. -/
def new : Session := withSettings .initial

/-- What expressions of the session depend on. -/
def scope (session : Session) : Scope :=
  { vars := session.vars, result := session.result,
    angleUnit := session.settings.angleUnit }

/-- How the session spells numbers. -/
def lettering (session : Session) : Lettering := session.settings.format.lettering

/-- A number as the session shows it. -/
def render (session : Session) (z : Complex) : String := z.render session.settings.format

/-- The session after an evaluation: a value is remembered as the last result. -/
def after (session : Session) (answer : Except EvalError Complex) (vars : Variables) : Session :=
  match answer with
  | .ok z => { session with result := some z, vars }
  | .error _ => { session with vars }

end Session

/-- What evaluates texts in a session: the text it is set on, and the tokens of that text with the
place it has come to. Tokens and place are there only while it evaluates. -/
structure Parser where
  expression : String
  tokens : List Token
  position : Nat

namespace Parser

/-- A new parser, set on a text. -/
def new (expression : String) : Parser := { expression, tokens := [], position := 0 }

/-- The parser set on another text. -/
def setExpression (parser : Parser) (expression : String) : Parser := { parser with expression }

/-- The parser without its tokens. -/
def reset (parser : Parser) : Parser := { parser with tokens := [], position := 0 }

/-- Evaluates the text that the parser is set on. -/
def parse (parser : Parser) (session : Session) : Except EvalError Complex × Parser × Session :=
  let parser := parser.reset
  match Token.scan session.lettering parser.expression with
  | .error error => (.error (.grammar error), parser, session)
  | .ok tokens =>
    let parser := { parser with tokens }
    let statement :=
      Statement.ofTokens session.lettering (parser.tokens.drop parser.position)
    let (answer, vars) := statement.run session.scope
    (answer, parser.reset, session.after answer vars)

end Parser

/-- Evaluates a text. -/
def Session.evaluate (session : Session) (text : String) : Except EvalError Complex × Session :=
  let (answer, _, session) := (Parser.new text).parse session
  (answer, session)

end Calculator
