import Calculator.AngleUnit
import Calculator.BuiltIn
import Calculator.Expression.OfTokens
import Calculator.Variables

/-!
# Evaluation

The value of an expression in a scope: the variables, the last result and the angle
unit. Operands are evaluated from left to right, and the first failure ends the
evaluation. A statement assigns its value to its targets from right to left, so a
failing operation leaves the assignments to its right in place.
-/

namespace Calculator

/-- What the value of an expression depends on. -/
structure Scope where
  vars : Variables
  result : Option Complex
  angleUnit : AngleUnit

/-! ## Names and numbers -/

/-- The value of a numeral. -/
def numeralValue (text : String) : Except EvalError Decimal :=
  match Decimal.parse text with
  | .ok x => .ok x
  | .error .conversionImpossible => .error (.grammar (.invalidNumber text))
  | .error error => .error (.math (.arithmetic error))

/-- The value of a number; the imaginary marker alone is the imaginary unit. -/
def Literal.value : Literal → Except EvalError Complex
  | .numeral text => return .ofReal (← numeralValue text)
  | .marker => return .i
  | .imaginary text _ => return ⟨.zero, ← numeralValue text⟩

namespace Scope

/-- The last result. -/
def lastResult (scope : Scope) : Except GrammarError Complex :=
  match scope.result with
  | some z => .ok z
  | none => .error .noResult

/-- The value of a name: a constant, the last result, or a variable. -/
def nameValue (scope : Scope) (name : String) : Except EvalError Complex :=
  let key := Text.lowercase name
  if key = "pi" then return .ofReal .pi
  else if key = "e" then return .ofReal .e
  else if key = "res" ∨ key = "result" then do scope.lastResult
  else do scope.vars.get name

end Scope

/-! ## Operations -/

/-- The operation on complex numbers. -/
def BinaryOp.apply : BinaryOp → Complex → Complex → Except MathError Complex
  | .add, z, w => do z.add w
  | .sub, z, w => do z.sub w
  | .mul, z, w => do z.mul w
  | .div, z, w => do z.div w
  | .pow, z, w => z.pow w

/-- Converts an angle for a function; an angle in radians stays as it is, real or not. -/
def convertAngle (function : String) (source target : AngleUnit) (angle : Complex) :
    Except EvalError Complex := do
  if source = target then return angle
  if !angle.isReal then throw (.math (.invalidArgument function .complexAngle))
  return .ofReal (← angle.re.convert source.unitName target.unitName)

/-- Applies a function whose angles are in the given unit. -/
def BuiltIn.apply (f : BuiltIn) (unit : AngleUnit) (arguments : List Complex) :
    Except EvalError Complex :=
  match f.angle with
  | .none => do f.call arguments
  | .argument =>
    match arguments with
    | [] => do f.call []
    | angle :: rest => do f.call ((← convertAngle f.name unit .radians angle) :: rest)
  | .result => do convertAngle f.name .radians unit (← f.call arguments)

/-- Converts a real number between units. -/
def convertUnit (source target : String) (z : Complex) : Except EvalError Complex := do
  if !z.isReal then throw (.grammar (.complexConversion s!"[{source}->{target}]"))
  return .ofReal (← z.re.convert source target)

/-! ## Expressions -/

mutual

/-- The value of an expression. -/
def Expr.eval (scope : Scope) : Expr → Except EvalError Complex
  | .literal number => number.value
  | .name text => scope.nameValue text
  | .call function arguments => do
    let values ← arguments.eval scope
    (← BuiltIn.find function values.length).apply scope.angleUnit values
  | .group inner => inner.eval scope
  | .signed negative operand => do
    let z ← operand.eval scope
    return if negative then -z else z
  | .convert operand source target => do convertUnit source target (← operand.eval scope)
  | .binary op left right => do
    let z ← left.eval scope
    let w ← right.eval scope
    op.apply z w

/-- The values of the arguments of a call. -/
def Arguments.eval (scope : Scope) : Arguments → Except EvalError (List Complex)
  | .last argument => do return [← argument.eval scope]
  | .cons argument rest => do
    let z ← argument.eval scope
    return z :: (← rest.eval scope)

end

/-- Evaluates what stands complete in front of a fault, and then fails for the fault. -/
def Broken.eval (scope : Scope) (broken : Broken) : Except EvalError Complex := do
  let _ ← broken.complete.mapM (Expr.eval scope)
  throw (.grammar broken.fault)

/-! ## Statements -/

/-- Names that cannot be assigned to, in any case of their letters. -/
def reservedNames : List String :=
  ["e", "pi", "res", "result", "i", "j", "exit", "quit", "help"]

/-- The name cannot be assigned to. -/
def isReserved (name : String) : Bool := reservedNames.any (Text.equalIgnoringCase · name)

namespace Target

/-- The value that the operation of an assignment starts from; a plain assignment has none. -/
def current (target : Target) (vars : Variables) : Except GrammarError (Option Complex) :=
  match target.op with
  | .set => .ok none
  | _ => some <$> vars.get target.name

/-- The operation that an assignment applies to the old and the new value. -/
def combine (target : Target) (current : Option Complex) (z : Complex) :
    Except MathError Complex :=
  match current, target.op with
  | none, _ => .ok z
  | some _, .set => .ok z
  | some old, .add => BinaryOp.add.apply old z
  | some old, .sub => BinaryOp.sub.apply old z
  | some old, .mul => BinaryOp.mul.apply old z
  | some old, .div => BinaryOp.div.apply old z
  | some old, .pow => BinaryOp.pow.apply old z

end Target

/-- Assigns a value to a chain of targets, and gives the variables as they are then. Every target is
checked before the value is formed; the assignments are carried out from right to left. -/
def assign (vars : Variables) (value : Unit → Except EvalError Complex) :
    List Target → Except EvalError Complex × Variables
  | [] => (value (), vars)
  | target :: rest =>
    if isReserved target.name then
      (.error (.grammar (.invalidVariableName target.name)), vars)
    else match target.current vars with
    | .error error => (.error (.grammar error), vars)
    | .ok current =>
      match assign vars value rest with
      | (.error error, vars) => (.error error, vars)
      | (.ok z, vars) =>
        match target.combine current z with
        | .error error => (.error (.math error), vars)
        | .ok z => (.ok z, vars.insert target.name z)

namespace Statement

/-- The value that a statement assigns. -/
def value (s : Statement) (scope : Scope) : Except EvalError Complex :=
  match s.body with
  | .ok e => e.eval scope
  | .error broken => broken.eval scope

/-- Runs a statement: its value, and the variables after it. Tokens after the statement are
complained of when its assignments are done. -/
def run (s : Statement) (scope : Scope) : Except EvalError Complex × Variables :=
  match assign scope.vars (fun _ => s.value scope) s.targets with
  | (.error error, vars) => (.error error, vars)
  | (.ok z, vars) =>
    match s.surplus with
    | some error => (.error (.grammar error), vars)
    | none => (.ok z, vars)

end Statement

end Calculator
