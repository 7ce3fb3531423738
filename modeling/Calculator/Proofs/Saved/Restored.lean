import Calculator.Proofs.Session.Store
import Calculator.Proofs.Session.VariableMap
import Calculator.Saved.Variables

/-!
# Restored variables

A store is saved with its keys, and a saved store is put together again from the keys as they are
written: of the fields with one key the last one counts. An assignment finds the key by itself. So a
restored store answers for the variables that it lists exactly if every field that counts stands
under the name of its variable in lower case; a field under any other key is listed and not found.
-/

namespace Calculator.Variables

variable {vars saved : Variables} {fields : List (String × Json)} {v : Variable}

/-! ## Reading fields -/

/-- The last of the fields under a key, if there is one, is what is read for it. -/
theorem lookup?_insertSaved (read : vars.insertSaved fields = some saved) (key : String) :
    saved.lookup? key = match Json.field? key fields.reverse with
      | some value => Variable.ofJson? value
      | none => vars.lookup? key := by
  induction fields generalizing vars with
  | nil =>
    cases read
    rfl
  | cons field rest ih =>
    obtain ⟨first, value⟩ := field
    obtain ⟨v, here, read⟩ := Option.bind_eq_some_iff.1 read
    rw [ih read, lookup?_insertAt, List.reverse_cons, Json.field?, Json.field?, List.find?_append]
    cases rest.reverse.find? (·.1 == key) with
    | some field => rfl
    | none =>
      -- no later field has the key, so the first one counts if it has
      by_cases same : first = key
      · subst same
        simp [here]
      · simp [same, Function.update_of_ne (Ne.symm same)]

/-- A saved store is read from the fields of one object. -/
theorem exists_fields_of_ofJson? {value : Json} (read : ofJson? value = some vars) :
    ∃ fields, value.record? ["vars"] = some [some (.object fields)] ∧
      empty.insertSaved fields = some vars := by
  obtain ⟨row, record, read⟩ := Option.bind_eq_some_iff.1 read
  split at read
  · split at read
    · exact ⟨_, record, read⟩
    · cases read
  · cases read

/-! ## Usable stores -/

/-- Every variable that the store lists is found under its name, and no two of the names are the
same in lower case. -/
structure Usable (vars : Variables) : Prop where
  get : ∀ v ∈ vars.toList, vars.get v.name = .ok v.value
  contains : ∀ v ∈ vars.toList, vars.contains v.name = true
  remove : ∀ v ∈ vars.toList, ∃ rest, vars.remove v.name = .ok (v, rest)
  distinct : (vars.toList.map fun v => Text.lowercase v.name).Nodup

theorem KeyedByName.usable (h : vars.KeyedByName) : vars.Usable where
  get v listed := by rw [Variables.get, h.find?_eq listed]
  contains v listed := by rw [Variables.contains, h.find?_eq listed, Option.isSome_some]
  remove v listed := ⟨vars.erase v.name, by rw [Variables.remove, h.find?_eq listed]⟩
  distinct := by
    rw [← h.keys_eq]
    exact vars.keys_nodup

theorem find?_of_remove {name : String} {rest : Variables}
    (removed : vars.remove name = .ok (v, rest)) : vars.find? name = some v := by
  unfold remove at removed
  split at removed
  · rename_i found
    cases removed
    exact found
  · cases removed

/-- An entry whose key is another one than its name would be listed a second time, at the place
where its name finds it. -/
theorem Usable.keyedByName (h : vars.Usable) : vars.KeyedByName := by
  intro entry mem
  obtain ⟨rest, removed⟩ := h.remove entry.2 (List.mem_map_of_mem mem)
  have found : (Text.lowercase entry.2.name, entry.2) ∈ vars.entries :=
    mem_of_lookup? (find?_of_remove removed)
  have names : (vars.entries.map fun entry => Text.lowercase entry.2.name).Nodup := by
    have distinct := h.distinct
    rwa [toList, List.map_map] at distinct
  exact congrArg Prod.fst (List.inj_on_of_nodup_map names mem found rfl)

theorem usable_iff : vars.Usable ↔ vars.KeyedByName := ⟨Usable.keyedByName, KeyedByName.usable⟩

theorem keyedByName_iff : vars.KeyedByName ↔
    ∀ key v, vars.lookup? key = some v → key = Text.lowercase v.name :=
  ⟨fun h _ _ held => h _ (mem_of_lookup? held), fun h _ mem => h _ _ (lookup?_of_mem mem)⟩

/-- A restored store is usable exactly if, of all fields that count, the key is the name of the
variable in lower case. -/
theorem restored_usable_iff {value : Json} (read : ofJson? value = some vars) :
    ∃ fields, value.record? ["vars"] = some [some (.object fields)] ∧
      (vars.Usable ↔ ∀ key field v, Json.field? key fields.reverse = some field →
        Variable.ofJson? field = some v → key = Text.lowercase v.name) := by
  obtain ⟨fields, record, put⟩ := exists_fields_of_ofJson? read
  refine ⟨fields, record, ?_⟩
  rw [usable_iff, keyedByName_iff]
  constructor
  · intro h key field v counts holds
    refine h key v ?_
    rw [lookup?_insertSaved put, counts]
    exact holds
  · intro h key v held
    rw [lookup?_insertSaved put] at held
    split at held
    · rename_i field counts
      exact h key field v counts held
    · cases held

/-- Variables under their names in lower case, which is not the order of the fields. -/
theorem restored_keys_in_lower_case :
    let one : Json := .object [("re", .text "1"), ("im", .text "0")]
    let value : Json := .object [("vars", .object [
      ("rate", .object [("name", .text "Rate"), ("value", one)]),
      ("b", .object [("name", .text "B"), ("value", one)])])]
    ∃ vars, ofJson? value = some vars ∧ vars.toList = [⟨"B", .one⟩, ⟨"Rate", .one⟩] ∧
      vars.Usable := by
  intro one value
  have listed : (ofJson? value).map toList = some [⟨"B", .one⟩, ⟨"Rate", .one⟩] := by
    decide +kernel
  obtain ⟨vars, read, list⟩ := Option.map_eq_some_iff.1 listed
  obtain ⟨fields, record, usable⟩ := restored_usable_iff read
  refine ⟨vars, read, list, usable.2 ?_⟩
  cases record
  intro key field v counts holds
  obtain ⟨entry, first, rfl⟩ := Option.map_eq_some_iff.1 counts
  obtain rfl : entry.1 = key := by simpa using List.find?_some first
  rcases List.mem_cons.1 (List.mem_of_find?_eq_some first) with rfl | mem
  · have b : Variable.ofJson? (.object [("name", .text "B"), ("value", one)]) = some ⟨"B", .one⟩ := by
      decide +kernel
    cases b.symm.trans holds
    decide +kernel
  · obtain rfl := List.mem_singleton.1 mem
    have rate : Variable.ofJson? (.object [("name", .text "Rate"), ("value", one)]) =
        some ⟨"Rate", .one⟩ := by
      decide +kernel
    cases rate.symm.trans holds
    decide +kernel

/-- A field whose key is the name as it is written is listed, and not found. -/
theorem restored_capital_key :
    let one : Json := .object [("re", .text "1"), ("im", .text "0")]
    let value : Json :=
      .object [("vars", .object [("X", .object [("name", .text "X"), ("value", one)])])]
    ∃ vars, ofJson? value = some vars ∧ vars.toList = [⟨"X", .one⟩] ∧
      vars.get "X" = .error (.unknownVariable "X") ∧ vars.contains "X" = false ∧
      vars.remove "X" = .error (.unknownVariable "X") := by
  intro one value
  have entries : (ofJson? value).map Variables.entries = some [("X", ⟨"X", .one⟩)] := by
    decide +kernel
  obtain ⟨vars, read, row⟩ := Option.map_eq_some_iff.1 entries
  have missing : vars.find? "X" = none := by
    rw [find?, lookup?, row]
    decide +kernel
  refine ⟨vars, read, by rw [toList, row]; rfl, ?_, ?_, ?_⟩
  · rw [Variables.get, missing]
  · rw [Variables.contains, missing, Option.isSome_none]
  · rw [Variables.remove, missing]

end Calculator.Variables
