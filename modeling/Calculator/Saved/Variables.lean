import Calculator.Saved.Number
import Calculator.Variables

/-!
# Saved variables

A store of variables is saved as an object with a field for each key. Reading keeps
the keys as they are written.
-/

namespace Calculator

def Variable.toJson (v : Variable) : Json :=
  .object [("name", .text v.name), ("value", v.value.toJson)]

def Variable.ofJson? (value : Json) : Option Variable := do
  let [some name, some value] ← value.record? ["name", "value"] | none
  return ⟨← name.text?, ← Complex.ofJson? value⟩

namespace Variables

def toJson (vars : Variables) : Json :=
  .object [("vars", .object (vars.entries.map fun (key, v) => (key, v.toJson)))]

/-- Puts saved variables into a store, each under its key. -/
def insertSaved (vars : Variables) : List (String × Json) → Option Variables
  | [] => some vars
  | (key, value) :: rest => do (vars.insertAt key (← Variable.ofJson? value)).insertSaved rest

def ofJson? (value : Json) : Option Variables := do
  let [some vars] ← value.record? ["vars"] | none
  match vars with
  | .object fields => empty.insertSaved fields
  | _ => none

end Variables

end Calculator
