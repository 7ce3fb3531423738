import Calculator.Complex.Basic
import Calculator.Expression.Error
import Calculator.Text.Lowercase

/-!
# User variables

A store of named values, in increasing order of its keys. The key of a variable is its
name in lower case, so names that differ in case only name the same variable; the
spelling of the latest assignment is kept for display.
-/

namespace Calculator

/-- A variable: its name as it was last written, and its value. -/
structure Variable where
  name : String
  value : Complex
  deriving DecidableEq

/-- Variables by key, the keys in increasing order. -/
structure Variables where
  entries : List (String × Variable)
  ordered : (entries.map Prod.fst).Pairwise (· < ·)

namespace Variables

/-- The store without variables. -/
def empty : Variables := ⟨[], .nil⟩

/-- Puts an entry in its place, instead of an entry with the same key. -/
def insertEntry (key : String) (v : Variable) : List (String × Variable) → List (String × Variable)
  | [] => [(key, v)]
  | (k, w) :: rest =>
    if key < k then (key, v) :: (k, w) :: rest
    else if key = k then (key, v) :: rest
    else (k, w) :: insertEntry key v rest

theorem mem_keys_insertEntry {key k : String} {v : Variable} {entries : List (String × Variable)} :
    k ∈ (insertEntry key v entries).map Prod.fst ↔ k = key ∨ k ∈ entries.map Prod.fst := by
  induction entries with
  | nil => simp [insertEntry]
  | cons entry rest ih =>
    obtain ⟨k', w⟩ := entry
    rw [insertEntry]
    split
    · simp
    · split
      · rename_i h; simp [h]
      · simp only [List.map_cons, List.mem_cons, ih]; grind

theorem ordered_insertEntry {key : String} {v : Variable} {entries : List (String × Variable)}
    (h : (entries.map Prod.fst).Pairwise (· < ·)) :
    ((insertEntry key v entries).map Prod.fst).Pairwise (· < ·) := by
  induction entries with
  | nil => simp [insertEntry]
  | cons entry rest ih =>
    obtain ⟨k, w⟩ := entry
    simp only [List.map_cons, List.pairwise_cons] at h
    rw [insertEntry]
    split
    · rename_i before
      simp only [List.map_cons, List.pairwise_cons, List.mem_cons]
      refine ⟨?_, h⟩
      rintro x (rfl | x_mem)
      · exact before
      · exact String.lt_trans before (h.1 x x_mem)
    · split
      · rename_i same
        simp only [List.map_cons, List.pairwise_cons, same]
        exact h
      · rename_i notBefore other
        simp only [List.map_cons, List.pairwise_cons]
        refine ⟨fun x x_mem => ?_, ih h.2⟩
        rcases mem_keys_insertEntry.1 x_mem with rfl | x_mem
        · exact Std.lt_of_le_of_ne (String.not_lt.1 notBefore) (Ne.symm other)
        · exact h.1 x x_mem

/-- Puts a variable under a key. -/
def insertAt (vars : Variables) (key : String) (v : Variable) : Variables :=
  ⟨insertEntry key v vars.entries, ordered_insertEntry vars.ordered⟩

/-- Assigns to the variable with this name. -/
def insert (vars : Variables) (name : String) (value : Complex) : Variables :=
  vars.insertAt (Text.lowercase name) ⟨name, value⟩

/-- The variable under a key. -/
def lookup? (vars : Variables) (key : String) : Option Variable :=
  (vars.entries.find? (·.1 == key)).map Prod.snd

/-- The variable with this name. -/
def find? (vars : Variables) (name : String) : Option Variable :=
  vars.lookup? (Text.lowercase name)

/-- The value of the variable with this name. -/
def get (vars : Variables) (name : String) : Except GrammarError Complex :=
  match vars.find? name with
  | some v => .ok v.value
  | none => .error (.unknownVariable name)

/-- There is a variable with this name. -/
def contains (vars : Variables) (name : String) : Bool := (vars.find? name).isSome

/-- The store without the variable with this name. -/
def erase (vars : Variables) (name : String) : Variables :=
  ⟨vars.entries.filter (·.1 != Text.lowercase name),
    vars.ordered.sublist (List.filter_sublist.map Prod.fst)⟩

/-- Takes the variable with this name out of the store. -/
def remove (vars : Variables) (name : String) : Except GrammarError (Variable × Variables) :=
  match vars.find? name with
  | some v => .ok (v, vars.erase name)
  | none => .error (.unknownVariable name)

/-- The variables in the order of their keys. -/
def toList (vars : Variables) : List Variable := vars.entries.map Prod.snd

/-- The number of variables. -/
def size (vars : Variables) : Nat := vars.entries.length

/-- There are no variables. -/
def isEmpty (vars : Variables) : Bool := vars.entries.isEmpty

/-- Stores are equal when their entries are. -/
theorem ext_entries {vars others : Variables} (h : vars.entries = others.entries) :
    vars = others := by
  cases vars; cases others; simp_all

end Variables

end Calculator
