/-!
# JSON values

The values that a session is saved as and that the command line reports, with the
text of a value and the readers that the saved forms share.
-/

namespace Calculator

/-- A JSON value. The number is `coefficient · 10 ^ -places`, as many places as it is written with;
the fields of an object are in the order of writing. -/
inductive Json where
  | null
  | boolean (value : Bool)
  | number (coefficient : Int) (places : Nat)
  | text (value : String)
  | list (items : List Json)
  | object (fields : List (String × Json))
  deriving Inhabited

namespace Json

/-! ## Writing -/

/-- A hexadecimal digit. -/
def hexDigit (n : Nat) : Char := Nat.digitChar (n % 16)

/-- A character inside a string: quotes, backslashes and control characters are escaped. -/
def escapeChar (c : Char) : List Char :=
  if c = '"' then ['\\', '"']
  else if c = '\\' then ['\\', '\\']
  else if c = '\x08' then ['\\', 'b']
  else if c = '\x0c' then ['\\', 'f']
  else if c = '\n' then ['\\', 'n']
  else if c = '\r' then ['\\', 'r']
  else if c = '\t' then ['\\', 't']
  else if c.toNat < 32 then ['\\', 'u', '0', '0', hexDigit (c.toNat / 16), hexDigit c.toNat]
  else [c]

/-- A string with its quotes. -/
def quote (text : String) : String :=
  String.ofList ('"' :: (text.toList.flatMap escapeChar ++ ['"']))

mutual

/-- The text of a value, without blanks. -/
def write : Json → String
  | null => "null"
  | boolean value => if value then "true" else "false"
  | number coefficient places =>
    toString coefficient ++ if places = 0 then "" else "e-" ++ toString places
  | text value => quote value
  | list items => "[" ++ writeItems items ++ "]"
  | object fields => "\x7b" ++ writeFields fields ++ "\x7d"

/-- The items of a list with commas between them. -/
def writeItems : List Json → String
  | [] => ""
  | [item] => write item
  | item :: rest => write item ++ "," ++ writeItems rest

/-- The fields of an object with commas between them. -/
def writeFields : List (String × Json) → String
  | [] => ""
  | [(name, value)] => quote name ++ ":" ++ write value
  | (name, value) :: rest => quote name ++ ":" ++ write value ++ "," ++ writeFields rest

end

/-! ## Reading -/

/-- The text of a string value. -/
def text? : Json → Option String
  | text value => some value
  | _ => none

/-- The value of a whole number that is not negative and fits sixty-four bits. -/
def count? : Json → Option Nat
  | number coefficient 0 =>
    if 0 ≤ coefficient ∧ coefficient ≤ 18446744073709551615 then some coefficient.toNat else none
  | _ => none

/-- The name of a choice: a string, or an object whose only field has that name and no value. -/
def choice? : Json → Option String
  | text name => some name
  | object [(name, null)] => some name
  | _ => none

/-- The same choice, with null in place of an empty object as its value. -/
def emptyAsNull : Json → Json
  | object [(name, object [])] => object [(name, null)]
  | value => value

/-- The value of a field. -/
def field? (name : String) (fields : List (String × Json)) : Option Json :=
  (fields.find? (·.1 == name)).map Prod.snd

/-- The fields of a record by name; fields of other names do not count. -/
def namedFields? (names : List String) : Json → Option (List (Option Json))
  | object fields => some (names.map (field? · fields))
  | _ => none

/-- The fields of a record: those of an object by name, or the items of a list in order, from which
the last ones may be missing. -/
def record? (names : List String) : Json → Option (List (Option Json))
  | list items =>
    if items.length ≤ names.length then
      some (items.map some ++ List.replicate (names.length - items.length) none)
    else none
  | value => value.namedFields? names

/-- Reads a field that has a default. -/
def orDefault (read : Json → Option α) (default : α) : Option Json → Option α
  | none => some default
  | some value => read value

end Json

end Calculator
