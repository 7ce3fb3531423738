import Mathlib.Data.Set.Card
import Calculator.Proofs.Session.Assignment
import Calculator.Proofs.Session.Store

/-!
# Variables as a map

A store of variables answers as a map from names in lower case. An assignment binds the key of its
name to the variable as it is written, a deletion takes the binding out, and nothing else is
touched. So what a map that changes have built holds under a key is the latest assignment to it, if
no deletion came after.
-/

namespace Calculator

/-- A change of the variables. -/
inductive Change where
  | assign (name : String) (value : Complex)
  | delete (name : String)
  | deleteAll

/-- The change concerns the variable under this key. -/
def Change.Concerns (key : String) : Change → Prop
  | .assign name _ => Text.lowercase name = key
  | .delete name => Text.lowercase name = key
  | .deleteAll => True

/-- A map from names in lower case to variables. -/
abbrev VariableMap := String → Option Variable

namespace VariableMap

/-- The map after a change. -/
def change (map : VariableMap) : Change → VariableMap
  | .assign name value => Function.update map (Text.lowercase name) (some ⟨name, value⟩)
  | .delete name => Function.update map (Text.lowercase name) none
  | .deleteAll => fun _ => none

/-- The map that changes build, the first change first, from a map without variables. -/
def ofChanges (changes : List Change) : VariableMap := changes.foldl change fun _ => none

variable {map : VariableMap} {c : Change} {key : String} {v : Variable}

theorem change_of_not_concerns (other : ¬c.Concerns key) : map.change c key = map key := by
  cases c with
  | assign name value => exact Function.update_of_ne (Ne.symm other) _ _
  | delete name => exact Function.update_of_ne (Ne.symm other) _ _
  | deleteAll => exact absurd trivial other

/-- A change that leaves a variable where it concerns one is the assignment of it. -/
theorem change_eq_some_of_concerns (concerns : c.Concerns key) (bound : map.change c key = some v) :
    c = .assign v.name v.value := by
  cases c with
  | assign name value =>
    obtain rfl : Text.lowercase name = key := concerns
    rw [change, Function.update_self] at bound
    cases bound
    rfl
  | delete name =>
    obtain rfl : Text.lowercase name = key := concerns
    rw [change, Function.update_self] at bound
    cases bound
  | deleteAll => cases bound

theorem ofChanges_concat (changes : List Change) (c : Change) :
    ofChanges (changes ++ [c]) = (ofChanges changes).change c := by
  simp [ofChanges]

/-- A list that ends in `c` is split at `c` or before it. -/
theorem split_concat {changes before after : List Change} {a : Change}
    (split : changes ++ [c] = before ++ a :: after) :
    (after = [] ∧ a = c ∧ changes = before) ∨
      ∃ front, after = front ++ [c] ∧ changes = before ++ a :: front := by
  rcases List.eq_nil_or_concat after with rfl | ⟨front, last, rfl⟩
  · obtain ⟨same, last⟩ := List.append_inj' split rfl
    exact .inl ⟨rfl, (List.singleton_inj.1 last).symm, same⟩
  · rw [List.concat_eq_append, ← List.cons_append, ← List.append_assoc] at split
    obtain ⟨same, last⟩ := List.append_inj' split rfl
    rw [List.concat_eq_append, List.singleton_inj.1 last]
    exact .inr ⟨front, rfl, same⟩

/-- Under a key, a map holds the variable of the latest assignment, if no later change concerns
it. -/
theorem ofChanges_eq_some_iff {changes : List Change} :
    ofChanges changes key = some v ↔ Text.lowercase v.name = key ∧
      ∃ before after, changes = before ++ .assign v.name v.value :: after ∧
        ∀ c ∈ after, ¬c.Concerns key := by
  induction changes using List.reverseRecOn with
  | nil =>
    constructor
    · intro bound
      cases bound
    · rintro ⟨-, before, after, split, -⟩
      simp at split
  | append_singleton changes c ih =>
    rw [ofChanges_concat]
    by_cases concerns : c.Concerns key
    · constructor
      · intro bound
        obtain rfl := change_eq_some_of_concerns concerns bound
        exact ⟨concerns, changes, [], rfl, by simp⟩
      · rintro ⟨rfl, before, after, split, untouched⟩
        rcases split_concat split with ⟨-, rfl, -⟩ | ⟨front, rfl, -⟩
        · exact Function.update_self ..
        · exact absurd concerns (untouched c (by simp))
    · rw [change_of_not_concerns concerns, ih]
      constructor
      · rintro ⟨rfl, before, after, rfl, untouched⟩
        refine ⟨rfl, before, after ++ [c], by simp, ?_⟩
        intro d mem
        rcases List.mem_append.1 mem with mem | mem
        · exact untouched d mem
        · rwa [List.mem_singleton.1 mem]
      · rintro ⟨rfl, before, after, split, untouched⟩
        refine ⟨rfl, ?_⟩
        rcases split_concat split with ⟨-, rfl, -⟩ | ⟨front, rfl, same⟩
        · exact absurd rfl concerns
        · exact ⟨before, front, same, fun d mem => untouched d (by simp [mem])⟩

end VariableMap

namespace Variables

variable {vars : Variables} {key name : String} {v : Variable}

/-! ## Changes of a store -/

/-- The store after a change. -/
def change (vars : Variables) : Change → Variables
  | .assign name value => vars.insert name value
  | .delete name => vars.erase name
  | .deleteAll => empty

theorem lookup?_insertAt (vars : Variables) (key : String) (v : Variable) :
    (vars.insertAt key v).lookup? = Function.update vars.lookup? key (some v) := by
  funext other
  by_cases same : other = key
  · rw [same, Function.update_self, lookup?_insertAt_self]
  · rw [Function.update_of_ne same, lookup?_insertAt_of_ne _ _ same]

theorem lookup?_erase (vars : Variables) (name : String) :
    (vars.erase name).lookup? = Function.update vars.lookup? (Text.lowercase name) none := by
  funext key
  by_cases same : key = Text.lowercase name
  · subst same
    rw [Function.update_self, lookup?, Option.map_eq_none_iff, List.find?_eq_none]
    intro entry mem
    have kept := (List.mem_filter.1 mem).2
    simpa using kept
  · rw [Function.update_of_ne same, lookup?, lookup?, erase, List.find?_filter]
    congr 2
    funext entry
    by_cases found : entry.1 = key
    · simp [found, same]
    · simp [found]

/-- As a map, a store changes as maps do. -/
theorem lookup?_change (vars : Variables) (c : Change) :
    (vars.change c).lookup? = VariableMap.change vars.lookup? c := by
  cases c with
  | assign name value => exact lookup?_insertAt vars (Text.lowercase name) ⟨name, value⟩
  | delete name => exact lookup?_erase vars name
  | deleteAll => rfl

theorem lookup?_foldl_change (vars : Variables) (changes : List Change) :
    (changes.foldl change vars).lookup? = changes.foldl VariableMap.change vars.lookup? := by
  induction changes generalizing vars with
  | nil => rfl
  | cons c rest ih =>
    rw [List.foldl_cons, List.foldl_cons, ih, lookup?_change]

/-! ## Answers of a store -/

/-- The store answers as the map does. -/
structure Reflects (vars : Variables) (map : VariableMap) : Prop where
  find : ∀ name, vars.find? name = map (Text.lowercase name)
  get : ∀ name, vars.get name = match map (Text.lowercase name) with
    | some v => .ok v.value
    | none => .error (.unknownVariable name)
  contains : ∀ name, vars.contains name = (map (Text.lowercase name)).isSome
  remove : ∀ name v, map (Text.lowercase name) = some v →
    ∃ rest, vars.remove name = .ok (v, rest) ∧
      ∀ other, rest.find? other = map.change (.delete name) (Text.lowercase other)
  remove_none : ∀ name, map (Text.lowercase name) = none →
    vars.remove name = .error (.unknownVariable name)
  size : {key | (map key).isSome}.encard = vars.size

theorem keys_nodup (vars : Variables) : (vars.entries.map Prod.fst).Nodup :=
  vars.ordered.imp fun before => String.ne_of_lt before

theorem mem_of_lookup? (found : vars.lookup? key = some v) : (key, v) ∈ vars.entries := by
  obtain ⟨entry, first, rfl⟩ := Option.map_eq_some_iff.1 found
  have same : entry.1 = key := by simpa using List.find?_some first
  exact same ▸ List.mem_of_find?_eq_some first

theorem isSome_lookup?_iff : (vars.lookup? key).isSome ↔ key ∈ vars.entries.map Prod.fst := by
  rw [Option.isSome_iff_exists, List.mem_map]
  constructor
  · rintro ⟨v, found⟩
    exact ⟨(key, v), mem_of_lookup? found, rfl⟩
  · rintro ⟨entry, mem, rfl⟩
    exact ⟨entry.2, lookup?_of_mem mem⟩

theorem encard_keys (vars : Variables) :
    {key | (vars.lookup? key).isSome}.encard = vars.size := by
  have keys : {key | (vars.lookup? key).isSome} =
      ((vars.entries.map Prod.fst).toFinset : Set String) := by
    ext key
    simp only [Set.mem_ofPred_eq, isSome_lookup?_iff, List.coe_toFinset]
  rw [keys, Set.encard_coe_eq_coe_finsetCard, List.toFinset_card_of_nodup vars.keys_nodup,
    List.length_map, size]

/-- A store answers as the map of its entries. -/
theorem reflects_lookup? (vars : Variables) : vars.Reflects vars.lookup? where
  find name := rfl
  get name := rfl
  contains name := rfl
  remove name v bound := by
    refine ⟨vars.erase name, ?_, fun other => ?_⟩
    · have found : vars.find? name = some v := bound
      rw [Variables.remove, found]
    · rw [find?, lookup?_erase]
      rfl
  remove_none name unbound := by
    have missing : vars.find? name = none := unbound
    rw [Variables.remove, missing]
  size := encard_keys vars

end Variables

end Calculator
