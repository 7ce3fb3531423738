import Calculator.Format.Basic
import Calculator.Text.Alphabetic
import Calculator.Text.Blank

/-!
# Tokens

The tokens of an expression and their spelling, and the classes of characters that
names and units are made of.
-/

namespace Calculator

/-- What an assignment does with the value that its variable had. -/
inductive AssignOp where
  | set
  | add
  | sub
  | mul
  | div
  | pow
  deriving DecidableEq

/-- An assignment as it is written. -/
def AssignOp.spelling : AssignOp → List Char
  | .set => ['=']
  | .add => ['+', '=']
  | .sub => ['-', '=']
  | .mul => ['*', '=']
  | .div => ['/', '=']
  | .pow => ['^', '=']

/-- A token of an expression. A numeral keeps the separator it is written with. -/
inductive Token where
  | number (text : String)
  | imaginaryOne
  | identifier (name : String)
  | plus
  | minus
  | multiply
  | divide
  | power
  | openBracket
  | closeBracket
  | semicolon
  | openSquare
  | unit (name : String)
  | arrow
  | closeSquare
  | assign (op : AssignOp)
  deriving DecidableEq

/-- The choices of a format that matter for reading. -/
structure Lettering where
  separator : Separator
  imaginaryUnit : ImaginaryUnit
  deriving DecidableEq

/-- The lettering of a format. -/
def ComplexFormat.lettering (f : ComplexFormat) : Lettering :=
  ⟨f.number.separator, f.imaginaryUnit⟩

namespace Lettering

/-- The character is the letter of the imaginary unit, in either case. -/
def isGlyph (l : Lettering) (c : Char) : Bool := c.toLower == l.imaginaryUnit.glyph

/-- The character is the decimal separator. -/
def isSeparator (l : Lettering) (c : Char) : Bool := c == l.separator.glyph

end Lettering

/-- A token as it is written. -/
def Token.spelling (l : Lettering) : Token → List Char
  | .number text => text.toList
  | .imaginaryOne => [l.imaginaryUnit.glyph]
  | .identifier name => name.toList
  | .plus => ['+']
  | .minus => ['-']
  | .multiply => ['*']
  | .divide => ['/']
  | .power => ['^']
  | .openBracket => ['(']
  | .closeBracket => [')']
  | .semicolon => [';']
  | .openSquare => ['[']
  | .unit name => name.toList
  | .arrow => ['-', '>']
  | .closeSquare => [']']
  | .assign op => op.spelling

/-- The character starts a name. -/
def isNameStart (c : Char) : Bool := c == '_' || Text.isAlphabetic c

/-- The character continues a name. -/
def isNameChar (c : Char) : Bool := isNameStart c || c.isDigit

/-- The character belongs to the name of a unit. -/
def isUnitChar (c : Char) : Bool := Text.isAlphabetic c || c == '/'

end Calculator
