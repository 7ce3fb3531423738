import Calculator.Complex.Trigonometry
import Calculator.Expression.Error

/-!
# Built-in functions

The table of functions that an expression can call. A function is found by its name
or an alias, without regard to the case of ASCII letters, together with the number of
its arguments.
-/

namespace Calculator

namespace BuiltIn

/-- The heading that a function is listed under. -/
inductive Category where
  | common
  | trigonometric
  | logarithmic
  deriving DecidableEq

/-- The headings in the order of listings. -/
def Category.all : List Category := [.common, .trigonometric, .logarithmic]

/-- The heading as it is written. -/
def Category.title : Category → String
  | .common => "Common"
  | .trigonometric => "Trigonometric"
  | .logarithmic => "Logarithmic"

/-- What a function has to do with the angle unit of the session. -/
inductive AngleRole where
  | none
  /-- The argument is an angle. -/
  | argument
  /-- The result is an angle. -/
  | result
  deriving DecidableEq

/-- What a function computes, by the number of its arguments. -/
inductive Body where
  | unary (f : Complex → Except MathError Complex)
  | binary (f : Complex → Complex → Except MathError Complex)

/-- The number of arguments. -/
def Body.arity : Body → Nat
  | .unary _ => 1
  | .binary _ => 2

end BuiltIn

/-- A function of complex numbers that an expression can call. -/
structure BuiltIn where
  name : String
  aliases : List String
  description : String
  category : BuiltIn.Category
  angle : BuiltIn.AngleRole
  body : BuiltIn.Body

namespace BuiltIn

/-- The number of arguments. -/
def arity (f : BuiltIn) : Nat := f.body.arity

/-- The names of the function, aliases last. -/
def names (f : BuiltIn) : List String := f.name :: f.aliases

/-- The text is one of the names of the function. -/
def answersTo (f : BuiltIn) (name : String) : Bool := f.names.any (Text.equalIgnoringCase · name)

/-- Applies the function; the number of arguments has to be right. -/
def call (f : BuiltIn) (arguments : List Complex) : Except MathError Complex :=
  match f.body, arguments with
  | .unary g, [z] => g z
  | .binary g, [z, w] => g z w
  | _, _ => .error (.invalidArgument f.name .argumentCount)

/-- The name and the number of arguments, as a record. -/
def summary (f : BuiltIn) : String :=
  "Function \x7b name: \"" ++ f.name ++ "\", arity: " ++ toString f.arity ++ " \x7d"

/-! ## The table -/

/-- A function without a part in the angle unit. -/
def plain (category : Category) (name : String) (aliases : List String) (description : String)
    (f : Complex → Except MathError Complex) : BuiltIn :=
  { name, aliases, description, category, angle := .none, body := .unary f }

/-- A trigonometric function whose argument or result is an angle. -/
def angular (angle : AngleRole) (name : String) (aliases : List String) (description : String)
    (f : Complex → Except MathError Complex) : BuiltIn :=
  { name, aliases, description, category := .trigonometric, angle, body := .unary f }

/-- The modulus as a complex number. -/
def modulus (z : Complex) : Except MathError Complex := return .ofReal (← z.abs)

/-- The square of the modulus as a complex number. -/
def square (z : Complex) : Except MathError Complex := return .ofReal (← z.sqr)

/-- The table of functions in the order of listings. -/
def table : List BuiltIn :=
  [ plain .common "abs" [] "Absolute value" modulus,
    plain .common "sqr" [] "Square" square,
    plain .common "sqrt" [] "Square root" Complex.sqrt,
    { name := "pow", aliases := [], description := "Power", category := .common, angle := .none,
      body := .binary Complex.pow },
    plain .common "fact" ["factorial"] "Factorial" Complex.factorial,
    angular .argument "sin" [] "Sine" Complex.sin,
    angular .argument "cos" [] "Cosine" Complex.cos,
    angular .argument "tan" ["tg"] "Tangent" Complex.tan,
    angular .argument "cot" ["ctg"] "Cotangent" Complex.cot,
    angular .result "asin" ["arcsin"] "Arc sine" Complex.arcsin,
    angular .result "acos" ["arccos"] "Arc cosine" Complex.arccos,
    angular .result "atan" ["arctan", "atg", "arctg"] "Arc tangent" Complex.arctan,
    angular .result "acot" ["arccot", "actg", "arcctg"] "Arc cotangent" Complex.arccot,
    plain .trigonometric "sinh" [] "Hyperbolic sine" Complex.sinh,
    plain .trigonometric "cosh" [] "Hyperbolic cosine" Complex.cosh,
    plain .trigonometric "tanh" ["th"] "Hyperbolic tangent" Complex.tanh,
    plain .trigonometric "coth" ["cth"] "Hyperbolic cotangent" Complex.coth,
    plain .trigonometric "asinh" ["arcsinh"] "Hyperbolic arc sine" Complex.arcsinh,
    plain .trigonometric "acosh" ["arccosh"] "Hyperbolic arc cosine" Complex.arccosh,
    plain .trigonometric "atanh" ["arctanh", "ath", "arcth"] "Hyperbolic arc tangent"
      Complex.arctanh,
    plain .trigonometric "acoth" ["arccoth", "acth", "arccth"] "Hyperbolic arc cotangent"
      Complex.arccoth,
    plain .logarithmic "ln" [] "Natural logarithm" Complex.ln,
    plain .logarithmic "log2" [] "Base-2 logarithm" Complex.log2,
    plain .logarithmic "log10" [] "Base-10 logarithm" Complex.log10,
    plain .logarithmic "exp" [] "Exponent" Complex.exp ]

/-- The function with this name and number of arguments. -/
def find (name : String) (arity : Nat) : Except GrammarError BuiltIn :=
  match table.find? fun f => f.answersTo name && f.arity == arity with
  | some f => .ok f
  | none => .error (.unknownFunction name)

end BuiltIn

end Calculator
