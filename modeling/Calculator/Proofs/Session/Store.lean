import Calculator.Variables

/-!
# The store of variables

What holds of every variable of a store, through the operations that change it. A new variable has
to meet the condition; a removal leaves fewer variables to ask about.
-/

namespace Calculator.Variables

variable {vars : Variables} {P : String → Variable → Prop}

/-- Every variable of the store meets the condition, under its key. -/
def Every (P : String → Variable → Prop) (vars : Variables) : Prop :=
  ∀ entry ∈ vars.entries, P entry.1 entry.2

/-- A store without variables meets any condition. -/
theorem every_empty : empty.Every P := by
  rintro entry ⟨⟩

/-- An insertion adds no entry but the new one. -/
theorem mem_insertEntry {key : String} {v : Variable} {entries : List (String × Variable)}
    {entry : String × Variable} (mem : entry ∈ insertEntry key v entries) :
    entry = (key, v) ∨ entry ∈ entries := by
  induction entries with
  | nil => exact .inl (List.mem_singleton.1 mem)
  | cons head rest ih =>
    rw [insertEntry] at mem
    split at mem
    · exact List.mem_cons.1 mem
    · split at mem
      · exact (List.mem_cons.1 mem).imp_right (List.mem_cons_of_mem _)
      · rcases List.mem_cons.1 mem with rfl | mem
        · exact .inr List.mem_cons_self
        · exact (ih mem).imp_right (List.mem_cons_of_mem _)

/-- A condition that the new variable meets is kept by its insertion. -/
theorem Every.insertAt (h : vars.Every P) {key : String} {v : Variable} (new : P key v) :
    (vars.insertAt key v).Every P := by
  intro entry mem
  rcases mem_insertEntry mem with rfl | mem
  · exact new
  · exact h entry mem

/-- What a removal leaves is the store without the name. -/
theorem remove_eq_ok {name : String} {v : Variable} {rest : Variables}
    (removed : vars.remove name = .ok (v, rest)) : rest = vars.erase name := by
  unfold remove at removed
  split at removed
  · cases removed
    rfl
  · cases removed

/-- An erasure keeps any condition. -/
theorem Every.erase (h : vars.Every P) (name : String) : (vars.erase name).Every P :=
  fun entry mem => h entry (List.mem_filter.1 mem).1

/-- A removal keeps any condition. -/
theorem Every.remove (h : vars.Every P) {name : String} {v : Variable} {rest : Variables}
    (removed : vars.remove name = .ok (v, rest)) : rest.Every P := by
  rw [remove_eq_ok removed]
  exact h.erase name

/-- An entry whose key is above all others goes to the end. -/
theorem insertEntry_of_above {key : String} {v : Variable} {entries : List (String × Variable)}
    (above : ∀ entry ∈ entries, entry.1 < key) :
    insertEntry key v entries = entries ++ [(key, v)] := by
  induction entries with
  | nil => rfl
  | cons head rest ih =>
    have below := above head List.mem_cons_self
    rw [insertEntry, if_neg (String.lt_asymm below), if_neg (String.ne_of_lt below).symm,
      ih fun entry mem => above entry (List.mem_cons_of_mem _ mem), List.cons_append]

/-- The variables that the store holds are found under their keys. -/
theorem lookup?_of_mem {key : String} {v : Variable} (mem : (key, v) ∈ vars.entries) :
    vars.lookup? key = some v := by
  obtain ⟨entries, ordered⟩ := vars
  simp only [lookup?] at mem ⊢
  induction entries with
  | nil => cases mem
  | cons head rest ih =>
    rw [List.map_cons, List.pairwise_cons] at ordered
    rcases List.mem_cons.1 mem with rfl | mem
    · rw [List.find?_cons_of_pos (by simp)]
      rfl
    · have above : head.1 < key := ordered.1 _ (List.mem_map_of_mem mem)
      rw [List.find?_cons_of_neg (by simpa using String.ne_of_lt above)]
      exact ih ordered.2 mem

/-- Every variable stands under its name in lower case. -/
def KeyedByName (vars : Variables) : Prop := vars.Every fun key v => key = Text.lowercase v.name

/-- The keys are the names in lower case, in the order of the variables. -/
theorem KeyedByName.keys_eq (h : vars.KeyedByName) :
    vars.entries.map Prod.fst = vars.toList.map fun v => Text.lowercase v.name := by
  rw [toList, List.map_map]
  exact List.map_congr_left fun entry mem => h entry mem

/-- The variables that the store lists are found by their names. -/
theorem KeyedByName.find?_eq (h : vars.KeyedByName) {v : Variable} (listed : v ∈ vars.toList) :
    vars.find? v.name = some v := by
  obtain ⟨entry, mem, rfl⟩ := List.mem_map.1 listed
  have held : vars.lookup? entry.1 = some entry.2 := lookup?_of_mem mem
  rwa [h entry mem] at held

end Calculator.Variables
