import Calculator.CommandLine.Options
import Calculator.Json.Basic
import Calculator.Session.Command

/-!
# Running from the command line

A run evaluates the expressions of the command line up to the first failure, or else
treats the lines of the standard input up to a line that asks to leave. What happens
does not depend on how it is reported: each reply is told as plain text, or as one
JSON object on a line of its own.
-/

namespace Calculator.CommandLine

/-- What is written to the standard output and to the standard error. -/
structure Output where
  stdout : String
  stderr : String
  deriving DecidableEq

namespace Output

/-- Nothing written. -/
def empty : Output := ⟨"", ""⟩

/-- A line on the standard output. -/
def line (text : String) : Output := ⟨text ++ "\n", ""⟩

/-- A line on the standard error. -/
def errorLine (text : String) : Output := ⟨"", text ++ "\n"⟩

/-- One output after another. -/
def append (first second : Output) : Output :=
  ⟨first.stdout ++ second.stdout, first.stderr ++ second.stderr⟩

end Output

/-! ## Replies -/

/-- A reply together with the session after it. -/
structure Event where
  reply : Session.Reply
  session : Session

/-- The event succeeded: it is no failed evaluation. -/
def Event.succeeded (event : Event) : Bool :=
  match event.reply with
  | .value (.error _) => false
  | _ => true

/-- The session that the options ask for. -/
def Options.session (options : Options) : Session :=
  let settings := Settings.initial
  let precision := options.precision.getD settings.format.number.precision
  Session.withSettings
    { angleUnit := options.angle.getD settings.angleUnit,
      format := settings.format.withPrecision precision }

/-- The evaluations of expressions, up to the first failure. -/
def expressionEvents (session : Session) : List String → List Event
  | [] => []
  | text :: rest =>
    let (answer, session) := session.evaluate text
    let event : Event := ⟨.value answer, session⟩
    if event.succeeded then event :: expressionEvents session rest else [event]

/-- What a line of the standard input leads to. -/
inductive LineOutcome where
  | blank
  | leave
  | event (event : Event)

/-- Treats a line, without the blanks around it. -/
def lineOutcome (session : Session) (text : String) : LineOutcome :=
  let line := String.ofList (Text.trim text.toList)
  if line.isEmpty then .blank
  else match session.submit line with
    | (.exit, _) => .leave
    | (reply, session) => .event ⟨reply, session⟩

/-- The events of lines up to one that asks to leave. -/
def lineEvents (session : Session) : List String → List Event
  | [] => []
  | line :: rest =>
    match lineOutcome session line with
    | .blank => lineEvents session rest
    | .leave => []
    | .event event => event :: lineEvents event.session rest

/-! ## Reports -/

/-- The JSON object that tells of a result. -/
def resultObject (text : String) : Json := .object [("result", .text text)]

/-- The JSON object that tells of an error. -/
def errorObject (error : EvalError) : Json :=
  .object [("error", .object [("code", .text error.code), ("message", .text error.message)])]

/-- The report of an event in JSON: one object on a line. -/
def Event.json (event : Event) : Output :=
  match event.reply with
  | .exit => .empty
  | .printed text => .line (resultObject (String.ofList (Text.trimEnd text.toList))).write
  | .value (.ok z) => .line (resultObject (event.session.render z)).write
  | .value (.error error) => .line (errorObject error).write

/-- The report of an event in plain text: values on the standard output, messages on the other. -/
def Event.plain (event : Event) : Output :=
  match event.reply with
  | .exit => .empty
  | .printed text => ⟨text, ""⟩
  | .value (.ok z) => .line (event.session.render z)
  | .value (.error error) => .errorLine error.message

/-- The report of an event. -/
def Event.report (json : Bool) (event : Event) : Output := if json then event.json else event.plain

/-- The reports of events, one after the other. -/
def reports (json : Bool) (events : List Event) : Output :=
  events.foldr (fun event rest => (event.report json).append rest) .empty

/-! ## Runs -/

/-- How a run ends: its exit code, and all that it wrote. -/
structure Ending where
  code : Nat
  output : Output
  deriving DecidableEq

/-- The name and the version of the program. -/
def versionLine : String := "maxcalc " ++ Command.versionNumber

/-- How the program is used. -/
def usageLine : String :=
  "Usage: maxcalc [-c <EXPR>...] [--json] [--precision <DIGITS>] [--angle <UNIT>]"

/-- A text divided at its line ends. -/
def splitLines : List Char → List (List Char)
  | [] => [[]]
  | c :: cs =>
    if c = '\n' then [] :: splitLines cs
    else match splitLines cs with
      | [] => [[c]]
      | line :: lines => (c :: line) :: lines

/-- Evaluates the expressions of the command line; a failure sets the exit code. -/
def runExpressions (options : Options) : Ending :=
  let events := expressionEvents options.session options.expressions
  { code := if events.all Event.succeeded then 0 else 1, output := reports options.json events }

/-- Treats the lines of the standard input. -/
def runLines (options : Options) (input : String) : Ending :=
  let lines := (splitLines input.toList).map String.ofList
  { code := 0, output := reports options.json (lineEvents options.session lines) }

/-- Runs the program with these arguments on this input. -/
def run (arguments : List String) (input : String) : Ending :=
  match Options.ofArguments arguments with
  | .error .usage => ⟨2, .errorLine usageLine⟩
  | .error .version => ⟨0, .line versionLine⟩
  | .error .help => ⟨0, .line usageLine⟩
  | .ok options =>
    if options.expressions.isEmpty then runLines options input else runExpressions options

end Calculator.CommandLine
