import Calculator.CommandLine.Run

/-!
# The program

Evaluates the expressions given as arguments, or else answers the lines of the
standard input one by one.
-/

namespace Calculator.CommandLine

def Output.put (output : Output) : IO Unit := do
  let stdout ← IO.getStdout
  stdout.putStr output.stdout
  stdout.flush
  (← IO.getStderr).putStr output.stderr

/-- Answers the lines of the standard input until one asks to leave. -/
partial def interact (json : Bool) (session : Session) : IO Unit := do
  let line ← (← IO.getStdin).getLine
  if line.isEmpty then return
  match lineOutcome session line with
  | .blank => interact json session
  | .leave => return
  | .event event =>
    (event.report json).put
    interact json event.session

/-- Runs the program: the standard input is read only if there are no expressions. -/
def runProgram (arguments : List String) : IO UInt32 := do
  match Options.ofArguments arguments with
  | .ok options =>
    if options.expressions.isEmpty then
      interact options.json options.session
      return 0
  | .error _ => pure ()
  let ending := run arguments ""
  ending.output.put
  return ending.code.toUInt32

end Calculator.CommandLine

def main (arguments : List String) : IO UInt32 :=
  Calculator.CommandLine.runProgram arguments
