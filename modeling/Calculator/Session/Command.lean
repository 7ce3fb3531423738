import Calculator.Session.Basic

/-!
# Commands

A line that starts with `#`, and the words `help`, `exit` and `quit`, are commands:
they show the tables of the calculator, show or delete variables, and show or change
the settings. Any other line is an expression.
-/

namespace Calculator

/-- A command with its arguments. -/
inductive Command where
  | help
  | listFunctions
  | listConversions
  | listConstants
  | listVariables
  | delete (names : List String)
  | version
  | angle (arguments : List String)
  | output (arguments : List String)
  | unknown (name : String)
  deriving DecidableEq

/-- What a line turns out to be. -/
inductive Line where
  | exit
  | command (command : Command)
  | expression
  deriving DecidableEq

namespace Command

/-! ## Reading -/

/-- The command with this name, in lower case. -/
def ofName (name : String) (arguments : List String) : Command :=
  if name ∈ ["func", "funcs"] then .listFunctions
  else if name ∈ ["conv", "convs"] then .listConversions
  else if name ∈ ["const", "consts"] then .listConstants
  else if name ∈ ["var", "vars"] then .listVariables
  else if name ∈ ["del", "delete"] then .delete arguments
  else if name ∈ ["ver", "version"] then .version
  else if name ∈ ["angle", "angles"] then .angle arguments
  else if name = "output" then .output arguments
  else .unknown name

/-- The command in the characters after a `#`: the first word names it, the others are its
arguments. -/
def ofChars (cs : List Char) : Command :=
  match (Text.words cs).map String.ofList with
  | [] => ofName "" []
  | name :: arguments => ofName (Text.lowercase name) arguments

end Command

/-- The characters less a `#` in front. -/
def withoutHash : List Char → List Char
  | '#' :: rest => rest
  | cs => cs

/-- Tells commands from expressions. The words that leave and the one that asks for help are
commands with and without a `#`. -/
def Line.ofText (text : String) : Line :=
  let cs := Text.trim text.toList
  let word := withoutHash (Text.lowercase (String.ofList cs)).toList
  if word ∈ ["exit".toList, "quit".toList] then .exit
  else if word = "help".toList then .command .help
  else match cs with
    | '#' :: rest => .command (.ofChars rest)
    | _ => .expression

namespace Command

/-! ## Listings -/

/-- The version of the calculator. -/
def versionNumber : String := "0.1.0"

/-- The text made of these lines. -/
def ofLines (lines : List String) : String := String.join (lines.map (· ++ "\n"))

/-- The text filled up with blanks to a width. -/
def padTo (width : Nat) (text : String) : String :=
  text ++ String.ofList (List.replicate (width - text.length) ' ')

def helpLines : List String :=
  [ "Commands:",
    "    #func - Display list of built-in functions.",
    "    #conv - Display list of unit conversions.",
    "    #const - Display list of constants.",
    "    #var - Display list of variables.",
    "    #del <var1> <var2>... - Delete one or more variables, or all variables if none given.",
    "    #angle [rad|deg|grad] - Show or set the angle unit.",
    "    #output [default] [.|,] [i|j] [precision] - Show or set output settings.",
    "    #ver - Display the program version.",
    "    help - Display this help.",
    "    exit - Close the program." ]

/-- A function with its names and the form of its arguments. -/
def functionLine (f : BuiltIn) : String :=
  let arguments := if f.arity = 1 then "(x)" else "(x; y)"
  "    " ++ padTo 12 (", ".intercalate f.names ++ arguments) ++ "\t\t" ++ f.description

/-- The functions under their headings. -/
def functionLines : List String :=
  BuiltIn.Category.all.flatMap fun category =>
    (category.title ++ ":") ::
      (BuiltIn.table.filter (·.category == category)).map functionLine

def unitLine (unit : MeasureUnit) : String :=
  "    " ++ padTo 6 unit.name ++ "\t\t" ++ unit.description

/-- The units under the titles of their categories. -/
def conversionLines : List String :=
  "Unit conversion syntax: <expression> [unit1->unit2]" :: "Example: 140[km->mi]" ::
    MeasureUnit.Category.all.flatMap fun category =>
      (category.title ++ ":") :: (MeasureUnit.inCategory category).map unitLine

/-- A named value. -/
def valueLine (session : Session) (name : String) (z : Complex) : String :=
  name ++ " = " ++ session.render z

/-- The last result, if there is one. -/
def resultLines (session : Session) : List String :=
  session.result.toList.map (valueLine session "res")

def constantLines (session : Session) : List String :=
  valueLine session "e" (.ofReal .e) :: valueLine session "pi" (.ofReal .pi) :: resultLines session

def variableLines (session : Session) : List String :=
  if session.result.isNone && session.vars.isEmpty then ["No variables defined"]
  else resultLines session ++
    session.vars.toList.map fun v => valueLine session v.name v.value

/-! ## Deleting variables -/

/-- Deletes one variable, and says what was done. -/
def deleteOne (vars : Variables) (name : String) : String × Variables :=
  let key := Text.lowercase name
  if key ∈ ["res", "result"] then (s!"Built-in variable '{name}' cannot be deleted.", vars)
  else if key ∈ ["e", "pi"] then (s!"Built-in constant '{name}' cannot be deleted.", vars)
  else match vars.remove name with
    | .ok (_, vars) => (s!"Deleted variable '{name}'.", vars)
    | .error _ => (s!"Unknown variable '{name}'.", vars)

/-- Deletes variables one after the other. -/
def deleteEach (vars : Variables) : List String → List String × Variables
  | [] => ([], vars)
  | name :: rest =>
    let (line, vars) := deleteOne vars name
    let (lines, vars) := deleteEach vars rest
    (line :: lines, vars)

/-- Deletes the named variables, or all of them if there are no names. -/
def deleteVariables (vars : Variables) (names : List String) : List String × Variables :=
  if names.isEmpty then (["Deleted all variables."], .empty) else deleteEach vars names

/-! ## Settings -/

/-- Shows the angle unit, or sets it to the one with the given name. -/
def setAngle (session : Session) : List String → String × Session
  | [] => (session.settings.angleUnit.displayName, session)
  | name :: _ =>
    match AngleUnit.ofName? name with
    | none => (s!"Unknown parameter '{name}'", session)
    | some unit =>
      ("Angle unit is set to " ++ Text.lowercase unit.displayName ++ ".",
        { session with settings := { session.settings with angleUnit := unit } })

/-- The format with the digits, the separator and the letter that a new session has. -/
def withDefaults (f : ComplexFormat) : ComplexFormat :=
  { (f.withPrecision NumberFormat.defaultPrecision).withSeparator .point with imaginaryUnit := .i }

/-- What an argument of the output command asks for. -/
inductive OutputChange where
  | defaults
  | separator (separator : Separator)
  | imaginaryUnit (unit : ImaginaryUnit)
  | precision (digits : Nat)
  | unknown
  deriving DecidableEq

/-- Reads an argument of the output command. -/
def OutputChange.ofText (text : String) : OutputChange :=
  let key := Text.lowercase text
  if key ∈ ["default", "defaults"] then .defaults
  else if key = "." then .separator .point
  else if key = "," then .separator .comma
  else if key = "i" then .imaginaryUnit .i
  else if key = "j" then .imaginaryUnit .j
  else if allDigits key.toList then .precision (digitsValue text.toList)
  else .unknown

/-- Changes the format as an argument asks for, and the complaint if it asks for something else. A
precision out of range sets the usual one. -/
def changeOutput (f : ComplexFormat) (argument : String) : List String × ComplexFormat :=
  match OutputChange.ofText argument with
  | .defaults => ([], withDefaults f)
  | .separator separator => ([], f.withSeparator separator)
  | .imaginaryUnit unit => ([], { f with imaginaryUnit := unit })
  | .precision digits =>
    if 1 ≤ digits ∧ digits ≤ NumberFormat.maxPrecision then ([], f.withPrecision digits)
    else
      let valid := s!"valid values are 1..{NumberFormat.maxPrecision}"
      ([s!"Invalid output precision '{argument}' ({valid})."],
        f.withPrecision NumberFormat.defaultPrecision)
  | .unknown => ([s!"Unknown parameter '{argument}'."], f)

/-- Changes the format argument by argument. -/
def changeOutputs (f : ComplexFormat) : List String → List String × ComplexFormat
  | [] => ([], f)
  | argument :: rest =>
    let (lines, f) := changeOutput f argument
    let (others, f) := changeOutputs f rest
    (lines ++ others, f)

/-- The settings of the output. -/
def outputLines (f : ComplexFormat) : List String :=
  [ "Output settings:",
    s!"    Precision = {f.number.digits} digits.",
    s!"    Decimal separator = '{f.number.separator.glyph}'.",
    s!"    Imaginary one = '{f.imaginaryUnit.glyph}'." ]

/-! ## Running -/

/-- Runs a command: the lines it prints, and the session after it. -/
def runLines (session : Session) : Command → List String × Session
  | .help => (helpLines, session)
  | .listFunctions => (functionLines, session)
  | .listConversions => (conversionLines, session)
  | .listConstants => (constantLines session, session)
  | .listVariables => (variableLines session, session)
  | .delete names =>
    let (lines, vars) := deleteVariables session.vars names
    (lines, { session with vars })
  | .version => (["MaxCalc v" ++ versionNumber], session)
  | .angle arguments =>
    let (line, session) := setAngle session arguments
    ([line], session)
  | .output arguments =>
    let (lines, f) := changeOutputs session.settings.format arguments
    (lines ++ outputLines f, { session with settings := { session.settings with format := f } })
  | .unknown name => ([s!"    Unknown command '{name}'."], session)

/-- Runs a command: the text it prints, and the session after it. -/
def run (command : Command) (session : Session) : String × Session :=
  let (lines, session) := runLines session command
  (ofLines lines, session)

end Command

namespace Session

/-- What a line leads to. -/
inductive Reply where
  | exit
  | printed (output : String)
  | value (answer : Except EvalError Complex)

/-- Treats a line as a command if it is one, and evaluates it otherwise. -/
def submit (session : Session) (text : String) : Reply × Session :=
  match Line.ofText text with
  | .exit => (.exit, session)
  | .command command =>
    let (output, session) := command.run session
    (.printed output, session)
  | .expression =>
    let (answer, session) := session.evaluate text
    (.value answer, session)

end Session

end Calculator
