import Calculator.Proofs.Session.Evaluation
import Calculator.Proofs.Session.Rendering
import Calculator.Proofs.Session.Store
import Calculator.Proofs.Token.Names
import Calculator.Session.Command

/-!
# Variables are read by their names

Through every line of a session a variable keeps a name that was scanned as one and that is not
reserved. Such a name is no command and no constant, so as a line it is the value of the variable,
where the letter of the imaginary unit does not take its first character. The letter can change
between the assignment and the reading: then a name of that letter and a digit is read as a number.
-/

namespace Calculator

/-! ## Names that are not reserved -/

/-- A reserved word is in lower case, and in ASCII. -/
theorem reservedNames_plain {word : String} (mem : word ∈ reservedNames) :
    (∀ d ∈ word.toList, d.toNat < 128 ∧ d ≠ 'k') ∧ word.toList.map Char.toLower = word.toList := by
  have each : (reservedNames.all fun word => word.toList.all (fun d => d.toNat < 128 && d != 'k') &&
      word.toList.map Char.toLower == word.toList) = true := by decide
  simpa using List.all_eq_true.1 each word mem

/-- What is a reserved word in lower case is reserved. -/
theorem lowercase_ne_of_free {name word : String} (free : isReserved name = false)
    (mem : word ∈ reservedNames) : Text.lowercase name ≠ word := by
  intro lower
  obtain ⟨ascii, same⟩ := reservedNames_plain mem
  have reserved : isReserved name = true := by
    refine List.any_eq_true.2 ⟨word, mem, ?_⟩
    rw [Text.equalIgnoringCase, Text.map_toLower_of_lowercase ascii lower, same, beq_self_eq_true]
  rw [free] at reserved
  cases reserved

theorem ne_hash_of_isNameStart {c : Char} (start : isNameStart c = true) : c.toLower ≠ '#' := by
  intro hash
  unfold Char.toLower at hash
  split at hash
  · -- A capital is mapped to a letter.
    rename_i upper
    have low : 65 ≤ c.val.toNat := upper.1
    have high : c.val.toNat ≤ 90 := upper.2
    have step : ('a'.val - 'A'.val).toNat = 32 := rfl
    have code : '#'.val.toNat = 35 := rfl
    have value := congrArg Char.toNat hash
    simp only [Char.toNat, UInt32.toNat_add] at value
    omega
  · rw [hash] at start
    exact absurd start (by decide)

namespace IsName

variable {name : String}

/-- A command that is spelled without a mark is a reserved word. -/
theorem ofText_eq (h : IsName name) (free : isReserved name = false) :
    Line.ofText name = .expression := by
  have solid : Text.trim name.toList = name.toList :=
    trim_eq_self fun c mem => not_isBlank_of_isNameChar (h.isNameChar_of_mem mem)
  obtain ⟨c, cs, row, start, -⟩ := h
  have word (w : String) (mem : w ∈ reservedNames) :
      withoutHash (Text.lowercase name).toList ≠ w.toList := by
    intro same
    unfold withoutHash at same
    split at same
    · rename_i rest hash
      have plain := (reservedNames_plain mem).1
      have ascii : ∀ d ∈ (String.ofList ('#' :: w.toList)).toList, d.toNat < 128 ∧ d ≠ 'k' := by
        rw [String.toList_ofList]
        rintro d (_ | ⟨_, mem⟩)
        · decide
        · exact plain d mem
      have lower : Text.lowercase name = String.ofList ('#' :: w.toList) :=
        String.toList_injective (by rw [hash, same, String.toList_ofList])
      have chars := Text.map_toLower_of_lowercase ascii lower
      rw [row, String.toList_ofList, List.map_cons] at chars
      exact ne_hash_of_isNameStart start (List.cons.inj chars).1
    · exact lowercase_ne_of_free free mem (String.toList_injective same)
  have mark : c ≠ '#' := by
    rintro rfl
    exact absurd start (by decide)
  have leaves : withoutHash (Text.lowercase name).toList ∉ ["exit".toList, "quit".toList] := by
    intro mem
    rcases List.mem_cons.1 mem with same | mem
    · exact word "exit" (by decide) same
    · exact word "quit" (by decide) (List.mem_singleton.1 mem)
  unfold Line.ofText
  dsimp only
  rw [solid, String.ofList_toList, if_neg leaves, if_neg (word "help" (by decide)), row]
  split
  · rename_i hash
    exact absurd (List.cons.inj hash).1 mark
  · rfl

end IsName

/-- In every spelling, a name that is not reserved has the value of the variable. -/
theorem nameValue_of_free {scope : Scope} {x name : String} {v : Variable}
    (free : isReserved x = false) (same : Text.lowercase name = Text.lowercase x)
    (found : scope.vars.find? name = some v) : scope.nameValue name = .ok v.value := by
  have word (w : String) (mem : w ∈ reservedNames) : Text.lowercase name ≠ w :=
    same ▸ lowercase_ne_of_free free mem
  have result : ¬(Text.lowercase name = "res" ∨ Text.lowercase name = "result") := by
    rintro (same | same)
    · exact word "res" (by decide) same
    · exact word "result" (by decide) same
  unfold Scope.nameValue
  dsimp only
  rw [if_neg (word "pi" (by decide)), if_neg (word "e" (by decide)), if_neg result, Variables.get,
    found]
  rfl

theorem submit_expression (session : Session) {text : String}
    (line : Line.ofText text = .expression) :
    session.submit text = (.value (session.evaluate text).1, (session.evaluate text).2) := by
  unfold Session.submit
  rw [line]

/-- A variable is the value of the line that is its name, where that is read as a name. -/
theorem submit_name {session : Session} {v : Variable} (spells : session.lettering.Spells v.name)
    (free : isReserved v.name = false) (found : session.vars.find? v.name = some v) :
    session.submit v.name = (.value (.ok v.value), { session with result := some v.value }) := by
  have scanned : Token.ofChars session.lettering v.name.toList = .ok [.identifier v.name] := by
    rw [← Token.scan_ofList, String.ofList_toList]
    exact Token.scan_eq_identifier_iff.2 spells
  have value : (Expr.name v.name).eval session.scope = .ok v.value := by
    rw [Expr.eval]
    exact nameValue_of_free free rfl found
  have evaluated : session.evaluate v.name =
      (.ok v.value, { session with result := some v.value }) := by
    have read := evaluate_of_tokens scanned rfl value
    rwa [String.ofList_toList] at read
  rw [submit_expression session (spells.isName.ofText_eq free), evaluated]

/-! ## What a line does to the variables -/

section

variable {P : String → Variable → Prop} {session : Session} {vars : Variables}

/-- Only targets whose names are not reserved are assigned to. -/
theorem Variables.Every.assign (h : vars.Every P) {value : Unit → Except EvalError Complex}
    {targets : List Target}
    (new : ∀ target ∈ targets, isReserved target.name = false →
      ∀ z, P (Text.lowercase target.name) ⟨target.name, z⟩) :
    (Calculator.assign vars value targets).2.Every P := by
  induction targets with
  | nil => exact h
  | cons target rest ih =>
    have others := ih fun t mem => new t (List.mem_cons_of_mem _ mem)
    rw [Calculator.assign]
    split
    · exact h
    · rename_i free
      split
      · exact h
      · split
        · rename_i carried
          rwa [carried] at others
        · rename_i carried
          rw [carried] at others
          split
          · exact others
          · exact others.insertAt (new target List.mem_cons_self (Bool.eq_false_iff.2 free) _)

/-- An evaluation assigns to names that it has scanned. -/
theorem Variables.Every.evaluate (h : session.vars.Every P) (text : String)
    (new : ∀ name, session.lettering.Spells name → isReserved name = false →
      ∀ z, P (Text.lowercase name) ⟨name, z⟩) :
    (session.evaluate text).2.vars.Every P := by
  unfold Session.evaluate Parser.parse
  dsimp only
  split
  · exact h
  · rename_i tokens scanned
    obtain ⟨assigned, assign, -⟩ :=
      run_eq_assign (Statement.ofTokens session.lettering tokens) session.scope
    have every : ((Statement.ofTokens session.lettering tokens).run session.scope).2.Every P := by
      rw [← congrArg Prod.snd assign]
      refine Every.assign h fun target mem free z => new target.name ?_ free z
      rw [targets_ofTokens] at mem
      exact Token.spells_of_mem_scan scanned (mem_of_mem_takeTargets mem)
    change (session.after _ _).vars.Every P
    rwa [Session.vars_after]

theorem Variables.Every.deleteEach (h : vars.Every P) (names : List String) :
    (Command.deleteEach vars names).2.Every P := by
  have one (vars : Variables) (h : vars.Every P) (name : String) :
      (Command.deleteOne vars name).2.Every P := by
    unfold Command.deleteOne
    dsimp only
    split
    · exact h
    · split
      · exact h
      · split
        · rename_i removed
          exact h.remove removed
        · exact h
  induction names generalizing vars with
  | nil => exact h
  | cons name rest ih => exact ih (one vars h name)

/-- A command deletes variables or keeps them. -/
theorem Variables.Every.run (h : session.vars.Every P) (command : Command) :
    (command.run session).2.vars.Every P := by
  cases command with
  | delete names =>
    have every : (Command.deleteVariables session.vars names).2.Every P := by
      unfold Command.deleteVariables
      split
      · exact every_empty
      · exact h.deleteEach names
    exact every
  | angle arguments =>
    have same : (Command.setAngle session arguments).2.vars = session.vars := by
      unfold Command.setAngle
      split
      · rfl
      · split <;> rfl
    have every : (Command.setAngle session arguments).2.vars.Every P := by rwa [same]
    exact every
  | _ => exact h

/-- What holds of the variables of a session, and of every variable that is named by a name of its
spelling, holds after the next line. -/
theorem Variables.Every.submit (h : session.vars.Every P) (line : String)
    (new : ∀ name, session.lettering.Spells name → isReserved name = false →
      ∀ z, P (Text.lowercase name) ⟨name, z⟩) :
    (session.submit line).2.vars.Every P := by
  unfold Session.submit
  split
  · exact h
  · exact h.run _
  · exact h.evaluate line new

end

/-! ## Sessions -/

/-- The session after lines that are submitted one after the other. -/
def Session.afterLines (session : Session) (lines : List String) : Session :=
  lines.foldl (fun session line => (session.submit line).2) session

theorem Session.afterLines_cons (session : Session) (line : String) (rest : List String) :
    session.afterLines (line :: rest) = (session.submit line).2.afterLines rest := by
  unfold afterLines
  rw [List.foldl_cons]

/-- The variable stands under its name in lower case, its name is not reserved, and it was read as a
name with a letter of these for the imaginary unit. -/
structure WellNamed (letters : ImaginaryUnit → Prop) (key : String) (v : Variable) : Prop where
  key_eq : key = Text.lowercase v.name
  free : isReserved v.name = false
  spelled : ∃ l : Lettering, letters l.imaginaryUnit ∧ l.Spells v.name

/-- The variables stay well named as long as the letter of the imaginary unit is one of these. -/
theorem wellNamed_afterLines {letters : ImaginaryUnit → Prop} {session : Session}
    (h : session.vars.Every (WellNamed letters)) {lines : List String}
    (current : ∀ done, done <+: lines →
      letters (session.afterLines done).lettering.imaginaryUnit) :
    (session.afterLines lines).vars.Every (WellNamed letters) := by
  induction lines generalizing session with
  | nil => exact h
  | cons line rest ih =>
    have here : letters session.lettering.imaginaryUnit := current [] List.nil_prefix
    have next : (session.submit line).2.vars.Every (WellNamed letters) :=
      h.submit line fun name spells free z => ⟨rfl, free, session.lettering, here, spells⟩
    rw [Session.afterLines_cons]
    refine ih next fun done within => ?_
    rw [← Session.afterLines_cons]
    exact current (line :: done) ((List.prefix_cons_inj line).2 within)

namespace WellNamed

variable {letters : ImaginaryUnit → Prop} {key : String} {v : Variable} {session : Session}
  {l : Lettering}

theorem isName (h : WellNamed letters key v) : IsName v.name := by
  obtain ⟨_, -, spells⟩ := h.spelled
  exact spells.isName

/-- The letters of the imaginary unit are reserved. -/
theorem not_isGlyph (h : WellNamed letters key v) (c : Char) (single : v.name.toList = [c]) :
    l.isGlyph c = false := by
  rw [← Bool.not_eq_true]
  intro glyph
  have reserved : isReserved v.name = true := by
    refine List.any_eq_true.2 ⟨String.singleton l.imaginaryUnit.glyph, ?_, ?_⟩
    · cases l.imaginaryUnit <;> decide
    · have letter : (String.singleton l.imaginaryUnit.glyph).toList.map Char.toLower =
          [l.imaginaryUnit.glyph] := by
        cases l.imaginaryUnit <;> decide
      rw [Text.equalIgnoringCase, single, letter, List.map_cons, List.map_nil, eq_of_beq glyph]
      exact beq_self_eq_true _
  rw [h.free] at reserved
  cases reserved

theorem spells_iff (h : WellNamed letters key v) :
    l.Spells v.name ↔ l.beginsImaginary v.name = false :=
  h.isName.spells_iff h.not_isGlyph

/-- A variable that is well named is found by its name. -/
theorem find?_eq (h : WellNamed letters key v) (mem : (key, v) ∈ session.vars.entries) :
    session.vars.find? v.name = some v := by
  rw [Variables.find?, ← h.key_eq]
  exact Variables.lookup?_of_mem mem

end WellNamed

/-- A variable that a session lists is never a command, and its name is read as a name exactly if it
does not begin with the letter of the imaginary unit and a digit. Then the name as a line is the
value of the variable. This is so for all variables of a session that never changes the letter. -/
theorem submit_listed_variable (lines : List String) :
    (∀ v ∈ (Session.new.afterLines lines).vars.toList,
      Line.ofText v.name = .expression ∧
      (Token.scan (Session.new.afterLines lines).lettering v.name = .ok [.identifier v.name] ↔
        (Session.new.afterLines lines).lettering.beginsImaginary v.name = false) ∧
      ((Session.new.afterLines lines).lettering.beginsImaginary v.name = false →
        (Session.new.afterLines lines).submit v.name =
          (.value (.ok v.value), { Session.new.afterLines lines with result := some v.value }))) ∧
    ((∀ done, done <+: lines → (Session.new.afterLines done).lettering.imaginaryUnit = .i) →
      ∀ v ∈ (Session.new.afterLines lines).vars.toList,
        (Session.new.afterLines lines).submit v.name =
          (.value (.ok v.value), { Session.new.afterLines lines with result := some v.value })) := by
  constructor
  · intro v listed
    obtain ⟨⟨key, v⟩, mem, rfl⟩ := List.mem_map.1 listed
    have named := @wellNamed_afterLines (fun _ => True) Session.new Variables.every_empty
      lines (fun _ _ => trivial) _ mem
    refine ⟨named.isName.ofText_eq named.free, ?_, fun plain => ?_⟩
    · rw [Token.scan_eq_identifier_iff, named.spells_iff]
    · exact submit_name (named.spells_iff.2 plain) named.free (named.find?_eq mem)
  · intro kept v listed
    obtain ⟨⟨key, v⟩, mem, rfl⟩ := List.mem_map.1 listed
    have named := @wellNamed_afterLines (· = .i) Session.new Variables.every_empty lines kept
      _ mem
    obtain ⟨l, letter, spells⟩ := named.spelled
    have same : (Session.new.afterLines lines).lettering.imaginaryUnit = l.imaginaryUnit :=
      (kept lines List.prefix_rfl).trans letter.symm
    have plain : (Session.new.afterLines lines).lettering.beginsImaginary v.name = false := by
      rw [Lettering.beginsImaginary_congr same]
      exact named.spells_iff.1 spells
    exact submit_name (named.spells_iff.2 plain) named.free (named.find?_eq mem)

/-- The variable of a session of one line. -/
theorem submit_x :
    ⟨"x", .ofReal 5⟩ ∈ (Session.new.afterLines ["x=5"]).vars.toList ∧
      Token.scan (Session.new.afterLines ["x=5"]).lettering "x" = .ok [.identifier "x"] ∧
      ((Session.new.afterLines ["x=5"]).submit "x").1 = .value (.ok (.ofReal 5)) := by
  have listed : ⟨"x", .ofReal 5⟩ ∈ (Session.new.afterLines ["x=5"]).vars.toList := by
    decide +kernel
  have plain : (Session.new.afterLines ["x=5"]).lettering.beginsImaginary "x" = false := by
    decide +kernel
  have kept : ∀ done, done <+: ["x=5"] →
      (Session.new.afterLines done).lettering.imaginaryUnit = .i := by
    have each : ∀ done ∈ ["x=5"].inits,
        (Session.new.afterLines done).lettering.imaginaryUnit = .i := by decide +kernel
    exact fun done within => each done ((List.mem_inits done _).2 within)
  obtain ⟨each, all⟩ := submit_listed_variable ["x=5"]
  exact ⟨listed, (each _ listed).2.1.2 plain, congrArg Prod.fst (all kept _ listed)⟩

/-- Under the letter `j` the name `i1` can be assigned to; under the letter `i` it is one times the
imaginary unit. -/
theorem submit_i1 :
    ⟨"i1", .ofReal 5⟩ ∈
        (Session.new.afterLines ["#output j", "i1=5", "#output i"]).vars.toList ∧
      ((Session.new.afterLines ["#output j", "i1=5", "#output i"]).submit "i1").1 =
        .value (.ok .i) := by
  have line : Line.ofText "i1" = .expression := by decide +kernel
  have value : ((Session.new.afterLines ["#output j", "i1=5", "#output i"]).evaluate "i1").1 =
      .ok .i := by
    decide +kernel
  refine ⟨by decide +kernel, ?_⟩
  rw [submit_expression _ line, value]

end Calculator
