import Calculator.AngleUnit
import Calculator.Format.Basic
import Calculator.Precision.Numeral

/-!
# Command line options

`-c` (or `--calc`) takes one or more expressions and may be repeated; `--json`,
`--precision` and `--angle` are given at most once. A value may follow its option, or
be attached to it with `=`; a value of its own does not start with a hyphen. The
arguments are read from left to right, and `--version` or `--help` ends the reading.
-/

namespace Calculator.CommandLine

/-- What the command line asks for. -/
structure Options where
  expressions : List String
  json : Bool
  precision : Option Nat
  angle : Option AngleUnit

/-- The options when there are no arguments. -/
def Options.initial : Options :=
  { expressions := [], json := false, precision := none, angle := none }

/-- Why the reading of the arguments ends early. -/
inductive Stop where
  | usage
  | version
  | help
  deriving DecidableEq

/-- An option that takes values. -/
inductive ValueOption where
  | calc
  | precision
  | angle
  deriving DecidableEq

/-- An option whose values are being collected, and the values so far. -/
structure Pending where
  option : ValueOption
  values : List String

/-- The options read so far; the values of the last one may still be coming in. -/
structure Progress where
  options : Options
  pending : Option Pending

/-! ## Values -/

/-- A number of digits from one to fifty, with a plus sign if need be. -/
def digitsOption? (text : String) : Option Nat :=
  let ds := match text.toList with
    | '+' :: rest => rest
    | cs => cs
  let n := digitsValue ds
  if !ds.isEmpty && allDigits ds && 1 ≤ n && n ≤ NumberFormat.maxPrecision then some n else none

/-- Gives an option its values. An option with a single value is given once. -/
def Options.assign (options : Options) (pending : Pending) : Except Stop Options :=
  match pending.option, pending.values with
  | .calc, value :: values =>
    .ok { options with expressions := options.expressions ++ value :: values }
  | .precision, [value] =>
    match options.precision, digitsOption? value with
    | none, some n => .ok { options with precision := some n }
    | _, _ => .error .usage
  | .angle, [value] =>
    match options.angle, AngleUnit.ofName? value with
    | none, some unit => .ok { options with angle := some unit }
    | _, _ => .error .usage
  | _, _ => .error .usage

namespace Progress

/-- Closes the option whose values are being collected. -/
def settle (progress : Progress) : Except Stop Options :=
  match progress.pending with
  | none => .ok progress.options
  | some pending => progress.options.assign pending

/-- Starts an option that takes values; an attached value is its only one. -/
def start (progress : Progress) (option : ValueOption) (attached : Option String) :
    Except Stop Progress := do
  let options ← progress.settle
  match attached with
  | none => return { options, pending := some ⟨option, []⟩ }
  | some value => return { options := ← options.assign ⟨option, [value]⟩, pending := none }

/-- Asks for JSON, once. -/
def setJson (progress : Progress) : Except Stop Progress := do
  let options ← progress.settle
  if options.json then throw .usage
  return { options := { options with json := true }, pending := none }

/-- Ends the reading, provided that what came before is in order. -/
def stop (progress : Progress) (reason : Stop) : Except Stop Progress := do
  let _ ← progress.settle
  throw reason

/-- A value goes to the option that is collecting; only expressions come in any number. -/
def addValue (progress : Progress) (value : String) : Except Stop Progress :=
  match progress.pending with
  | some ⟨.calc, values⟩ => .ok { progress with pending := some ⟨.calc, values ++ [value]⟩ }
  | some ⟨option, []⟩ => .ok { progress with pending := some ⟨option, [value]⟩ }
  | _ => .error .usage

/-! ## Arguments -/

/-- An option with a long name. -/
def longOption (progress : Progress) (name : String) (attached : Option String) :
    Except Stop Progress :=
  match name, attached with
  | "calc", value => progress.start .calc value
  | "precision", value => progress.start .precision value
  | "angle", value => progress.start .angle value
  | "json", none => progress.setJson
  | "version", none => progress.stop .version
  | "help", none => progress.stop .help
  | _, _ => .error .usage

/-- An option with a short name, and what is attached to it. -/
def shortOption (progress : Progress) : List Char → Except Stop Progress
  | ['c'] => progress.start .calc none
  | 'c' :: '=' :: value => progress.start .calc (some (String.ofList value))
  | 'c' :: value => progress.start .calc (some (String.ofList value))
  | 'V' :: _ => progress.stop .version
  | 'h' :: _ => progress.stop .help
  | _ => .error .usage

/-- An argument other than `--`. A lone hyphen is a value. -/
def argument (progress : Progress) (text : String) : Except Stop Progress :=
  match text.toList with
  | '-' :: '-' :: rest =>
    let (name, attached) := splitAtFirst (· == '=') rest
    progress.longOption (String.ofList name) (attached.map String.ofList)
  | '-' :: c :: rest => progress.shortOption (c :: rest)
  | _ => progress.addValue text

/-- Reads the arguments. Nothing may follow `--`. -/
def arguments (progress : Progress) : List String → Except Stop Options
  | [] => progress.settle
  | text :: rest => do
    if text = "--" then
      let options ← progress.settle
      if rest.isEmpty then return options else throw .usage
    else (← progress.argument text).arguments rest

end Progress

/-- Reads the arguments of the command line. -/
def Options.ofArguments (arguments : List String) : Except Stop Options :=
  Progress.arguments { options := .initial, pending := none } arguments

end Calculator.CommandLine
