import Calculator.Proofs.Session.Changes

/-!
# What a line leaves as it was

A line that is no command, or that asks to leave, prints nothing and changes nothing. A command
keeps the last result. Only the deletion of variables touches them, and it takes away the named
ones; only the command about angles sets the angle unit, and only the one about the output changes
the format, of which it leaves the style and the case of the exponent. The digits that are shown are
then those that the last argument about them asks for.
-/

namespace Calculator

/-! ## How a line spells a command -/

/-- The line is a mark and words, the first of which is one of these names in any case of its
letters; the other words are the arguments. -/
def Line.Names (names : List String) (text : String) (arguments : List String) : Prop :=
  ∃ rest word, Text.trim text.toList = '#' :: rest ∧
    (Text.words rest).map String.ofList = word :: arguments ∧ Text.lowercase word ∈ names

namespace Line

variable {text : String} {names arguments : List String} {command : Command}

theorem words_of_solid {cs : List Char} (some : cs ≠ []) (solid : ∀ c ∈ cs, Text.isBlank c = false) :
    Text.words cs = [cs] := by
  have row : cs.foldr Text.addToWords [] = [cs] := by
    induction cs with
    | nil => exact absurd rfl some
    | cons c cs ih =>
      have plain : Text.isBlank c = false := solid c List.mem_cons_self
      rw [List.foldr_cons]
      by_cases last : cs = []
      · subst last
        simp [Text.addToWords, plain]
      · rw [ih last fun d mem => solid d (List.mem_cons_of_mem _ mem)]
        simp [Text.addToWords, plain]
  rw [Text.words, row]
  simp [some]

/-- The words that are commands without a mark too. -/
abbrev plainNames : List String := ["exit", "quit", "help"]

theorem plainNames_plain {word : String} (mem : word ∈ plainNames) :
    (∀ d ∈ word.toList, d.toNat < 128 ∧ d ≠ 'k') ∧ (∀ d ∈ word.toList, Text.isBlank d = false) ∧
      word.toList ≠ [] ∧ word.toList.head? ≠ some '#' ∧ Text.lowercase word = word := by
  have each : (plainNames.all fun word => word.toList.all (fun d => d.toNat < 128 && d != 'k') &&
      word.toList.all (!Text.isBlank ·) && word.toList != [] && word.toList.head? != some '#' &&
      Text.lowercase word == word) = true := by
    decide +kernel
  simpa [and_assoc] using List.all_eq_true.1 each word mem

/-- A line with a mark that is one of these words is that word behind its mark. -/
theorem lowercase_of_marked {rest : List Char} {word : String} (mem : word ∈ plainNames)
    (same : withoutHash (Text.lowercase (String.ofList ('#' :: rest))).toList = word.toList) :
    Text.words rest = [rest] ∧ Text.lowercase (String.ofList rest) = word := by
  obtain ⟨ascii, solid, some, unmarked, fixed⟩ := plainNames_plain mem
  have small : rest.map Char.toLower = word.toList := by
    unfold withoutHash at same
    split at same
    · rename_i marked
      have marked_ascii : ∀ d ∈ (String.ofList ('#' :: word.toList)).toList,
          d.toNat < 128 ∧ d ≠ 'k' := by
        rw [String.toList_ofList]
        rintro d (_ | ⟨_, mem⟩)
        · decide
        · exact ascii d mem
      have chars := Text.map_toLower_of_lowercase marked_ascii
        (String.toList_injective (by rw [marked, same, String.toList_ofList]))
      rw [String.toList_ofList, String.toList_ofList, List.map_cons] at chars
      exact (List.cons.inj chars).2
    · have chars := Text.map_toLower_of_lowercase ascii (String.toList_injective same)
      rw [String.toList_ofList, List.map_cons] at chars
      exact absurd (congrArg List.head? chars).symm unmarked
  constructor
  · refine words_of_solid ?_ fun c mem => ?_
    · rintro rfl
      exact some small.symm
    · rw [← Text.isBlank_toLower]
      exact solid _ (small ▸ List.mem_map_of_mem mem)
  · rw [← Text.lowercase_foldCase, ← Text.ofList_small, Text.small, small, String.ofList_toList, fixed]

/-- A line that spells a command by another name is that command. -/
theorem ofText_of_names (other : ∀ name ∈ names, name ∉ plainNames)
    (h : Names names text arguments) :
    ∃ name ∈ names, ofText text = .command (.ofName name arguments) := by
  obtain ⟨rest, word, marked, row, named⟩ := h
  refine ⟨_, named, ?_⟩
  have free {plain : String} (mem : plain ∈ plainNames) :
      withoutHash (Text.lowercase (String.ofList ('#' :: rest))).toList ≠ plain.toList := by
    intro same
    obtain ⟨alone, lower⟩ := lowercase_of_marked mem same
    rw [alone, List.map_singleton] at row
    rw [(List.cons.inj row).1] at lower
    exact other _ named (lower ▸ mem)
  have leaves : withoutHash (Text.lowercase (String.ofList ('#' :: rest))).toList ∉
      ["exit".toList, "quit".toList] := by
    intro mem
    rcases List.mem_cons.1 mem with same | mem
    · exact free (by decide) same
    · exact free (by decide) (List.mem_singleton.1 mem)
  unfold ofText
  dsimp only
  rw [marked, if_neg leaves, if_neg (free (by decide))]
  change Line.command (Command.ofChars rest) = _
  rw [Command.ofChars, row]

/-- A command comes from a line that spells it, or it is the one that asks for help, or one without
a name. -/
theorem names_of_ofText (h : ofText text = .command command) :
    command = .help ∨ command = .unknown "" ∨
      ∃ name arguments, Names [name] text arguments ∧ command = .ofName name arguments := by
  unfold ofText at h
  dsimp only at h
  split at h
  · cases h
  · split at h
    · cases h
      exact .inl rfl
    · split at h
      · rename_i rest marked
        cases h
        unfold Command.ofChars
        cases row : (Text.words rest).map String.ofList with
        | nil => exact .inr (.inl rfl)
        | cons word arguments =>
          exact .inr (.inr ⟨_, arguments, ⟨rest, word, marked, row, List.mem_singleton_self _⟩, rfl⟩)
      · cases h

theorem Names.of_singleton {name : String} (h : Names [name] text arguments) (mem : name ∈ names) :
    Names names text arguments := by
  obtain ⟨rest, word, marked, row, named⟩ := h
  exact ⟨rest, word, marked, row, List.mem_singleton.1 named ▸ mem⟩

end Line

/-! ## Deletions -/

/-- The deletion of these names concerns the variable; without names it concerns all. -/
def Variable.isNamed (names : List String) (v : Variable) : Bool :=
  names.isEmpty || names.any fun name => Text.lowercase name == Text.lowercase v.name

theorem Variable.not_isNamed {names : List String} (some : names ≠ []) (v : Variable) :
    (!v.isNamed names) = names.all (Text.lowercase v.name != Text.lowercase ·) := by
  have apart (name : String) : (!Text.lowercase name == Text.lowercase v.name) =
      (Text.lowercase v.name != Text.lowercase name) := by
    rw [bne, BEq.comm]
  rw [isNamed, List.isEmpty_eq_false_iff.2 some, Bool.false_or, List.not_any_eq_all_not]
  simp only [apart]

namespace Variables

variable {vars : Variables}

/-- One deletion after the other leaves the entries whose keys none of them has. -/
theorem entries_foldl_delete (names : List String) :
    ((names.map Change.delete).foldl change vars).entries =
      vars.entries.filter fun entry => names.all (entry.1 != Text.lowercase ·) := by
  induction names generalizing vars with
  | nil => simp
  | cons name rest ih =>
    rw [List.map_cons, List.foldl_cons, ih, change, erase, List.filter_filter]
    simp only [List.all_cons, Bool.and_comm]

theorem WellNamed.toList_changes_delete (h : vars.WellNamed) (names : List String) :
    ((Command.delete names).changes.foldl change vars).toList =
      vars.toList.filter (!·.isNamed names) := by
  cases names with
  | nil => simp [Command.changes, change, toList, empty, Variable.isNamed]
  | cons name rest =>
    have changes : (Command.delete (name :: rest)).changes = (name :: rest).map .delete := rfl
    rw [changes, toList, entries_foldl_delete, toList, List.filter_map]
    congr 1
    refine List.filter_congr fun entry mem => ?_
    rw [Function.comp, Variable.not_isNamed (List.cons_ne_nil _ _), ← (h entry mem).key_eq]

end Variables

/-! ## Settings -/

/-- The digits that an argument of the output command sets, if it is about them: those of a new
session or the ones it gives, for which those of a new session stand in if they are out of range. -/
def Command.digits? (argument : String) : Option ℕ :=
  if Text.lowercase argument ∈ ["default", "defaults"] then some NumberFormat.defaultPrecision
  else if allDigits argument.toList then
    let digits := digitsValue argument.toList
    some (if 1 ≤ digits ∧ digits ≤ NumberFormat.maxPrecision then digits
      else NumberFormat.defaultPrecision)
  else none

theorem lowerFrom_digits (before : List Char) {cs : List Char} (digits : allDigits cs = true) :
    Text.lowerFrom before cs = cs := by
  induction cs generalizing before with
  | nil => rfl
  | cons c cs ih =>
    obtain ⟨digit, others⟩ := Bool.and_eq_true_iff.1 digits
    have plain := of_isDigit (fun c => c != 'Σ' && c != 'İ' && Text.lowerChar c == c) (by decide) digit
    simp only [Bool.and_eq_true, bne_iff_ne, beq_iff_eq] at plain
    obtain ⟨⟨sigma, dotted⟩, same⟩ := plain
    rw [Text.lowerFrom, ih _ others, Text.lowerAt, if_neg sigma, if_neg dotted, same,
      List.singleton_append]

theorem allDigits_lowercase (text : String) :
    allDigits (Text.lowercase text).toList = allDigits text.toList := by
  rw [Bool.eq_iff_iff]
  constructor
  · intro digits
    have ascii : ∀ d ∈ (Text.lowercase text).toList, d.toNat < 128 ∧ d ≠ 'k' := fun d mem => by
      simpa using of_isDigit (fun d => decide (d.toNat < 128) && d != 'k') (by decide)
        (List.all_eq_true.1 digits d mem)
    rw [← Text.map_toLower_of_lowercase ascii rfl, allDigits, List.all_map] at digits
    refine List.all_eq_true.2 fun c mem => ?_
    rw [← Text.isDigit_toLower]
    exact List.all_eq_true.1 digits c mem
  · intro digits
    rwa [Text.lowercase, String.toList_ofList, lowerFrom_digits [] digits]

namespace Command

/-- What the output command keeps of a format, and the digits that are shown after it. -/
structure Adjusts (digits : ℕ) (before after : ComplexFormat) : Prop where
  style : after.number.style = before.number.style
  exponentCase : after.number.exponentCase = before.number.exponentCase
  digits : after.number.digits = digits

theorem digits_withPrecision (f : ComplexFormat) {digits : ℕ} (some : 1 ≤ digits)
    (few : digits ≤ NumberFormat.maxPrecision) : (f.withPrecision digits).number.digits = digits := by
  have most : NumberFormat.maxPrecision = 50 := rfl
  simp only [ComplexFormat.withPrecision, NumberFormat.digits, NumberFormat.clamp]
  omega

/-- The digits, by what the argument asks for. -/
theorem digits?_eq (argument : String) : digits? argument =
    match OutputChange.ofText argument with
    | .defaults => some NumberFormat.defaultPrecision
    | .precision digits =>
      some (if 1 ≤ digits ∧ digits ≤ NumberFormat.maxPrecision then digits
        else NumberFormat.defaultPrecision)
    | _ => none := by
  unfold OutputChange.ofText digits?
  rw [← allDigits_lowercase]
  generalize Text.lowercase argument = key
  dsimp only
  by_cases defaults : key ∈ ["default", "defaults"]
  · rw [if_pos defaults, if_pos defaults]
  rw [if_neg defaults, if_neg defaults]
  by_cases sign : key ∈ [".", ",", "i", "j"]
  · have each : ∀ sign ∈ [".", ",", "i", "j"], ¬allDigits sign.toList = true := by decide
    rw [if_neg (each key sign)]
    simp only [List.mem_cons, List.not_mem_nil, or_false] at sign
    rcases sign with rfl | rfl | rfl | rfl <;> rfl
  · simp only [List.mem_cons, List.not_mem_nil, or_false, not_or] at sign
    obtain ⟨point, comma, i, j⟩ := sign
    rw [if_neg point, if_neg comma, if_neg i, if_neg j]
    by_cases digits : allDigits key.toList = true
    · rw [if_pos digits, if_pos digits]
    · rw [if_neg digits, if_neg digits]

theorem adjusts_changeOutput (f : ComplexFormat) (argument : String) :
    Adjusts ((digits? argument).getD f.number.digits) f (changeOutput f argument).2 := by
  rw [digits?_eq]
  unfold changeOutput
  cases OutputChange.ofText argument with
  | defaults => exact ⟨rfl, rfl, rfl⟩
  | separator separator => exact ⟨rfl, rfl, rfl⟩
  | imaginaryUnit unit => exact ⟨rfl, rfl, rfl⟩
  | precision digits =>
    dsimp only
    split
    · rename_i inside
      exact ⟨rfl, rfl, digits_withPrecision f inside.1 inside.2⟩
    · exact ⟨rfl, rfl, rfl⟩
  | unknown => exact ⟨rfl, rfl, rfl⟩

theorem adjusts_changeOutputs (f : ComplexFormat) (arguments : List String) :
    Adjusts (((arguments.filterMap digits?).getLast?).getD f.number.digits) f
      (changeOutputs f arguments).2 := by
  induction arguments generalizing f with
  | nil => exact ⟨rfl, rfl, rfl⟩
  | cons argument rest ih =>
    obtain ⟨style, letter, digits⟩ := adjusts_changeOutput f argument
    obtain ⟨style', letter', digits'⟩ := ih (changeOutput f argument).2
    refine ⟨style'.trans style, letter'.trans letter, digits'.trans ?_⟩
    rw [digits]
    cases set : digits? argument with
    | none => rw [List.filterMap_cons_none set, Option.getD_none]
    | some n => rw [List.filterMap_cons_some set, List.getLast?_cons, Option.getD_some, Option.getD_some]

/-- An argument that is out of range counts, and one that is not understood does not. -/
example : (["7", "DEFAULT", "j", "12", "51", "x"].filterMap digits?).getLast? = some 25 := by
  decide +kernel

/-- The session after the command about angles. -/
theorem run_angle (session : Session) (arguments : List String) :
    ((angle arguments).run session).2 =
      match arguments.head?.bind AngleUnit.ofName? with
      | some unit => { session with settings := { session.settings with angleUnit := unit } }
      | none => session := by
  have run : ((angle arguments).run session).2 = (setAngle session arguments).2 := rfl
  rw [run]
  cases arguments with
  | nil => rfl
  | cons name rest =>
    rw [List.head?_cons, Option.bind_some, setAngle]
    cases AngleUnit.ofName? name <;> rfl

/-- A command deletes variables, or is about angles or about the output, or changes nothing. -/
theorem ofName_cases (name : String) (arguments : List String) :
    name ∈ ["del", "delete"] ∧ ofName name arguments = .delete arguments ∨
    name ∈ ["angle", "angles"] ∧ ofName name arguments = .angle arguments ∨
    name ∈ ["output"] ∧ ofName name arguments = .output arguments ∨
    ∀ session, ((ofName name arguments).run session).2 = session := by
  unfold ofName
  split
  · exact .inr (.inr (.inr fun _ => rfl))
  split
  · exact .inr (.inr (.inr fun _ => rfl))
  split
  · exact .inr (.inr (.inr fun _ => rfl))
  split
  · exact .inr (.inr (.inr fun _ => rfl))
  split
  · rename_i named
    exact .inl ⟨named, rfl⟩
  split
  · exact .inr (.inr (.inr fun _ => rfl))
  split
  · rename_i named
    exact .inr (.inl ⟨named, rfl⟩)
  split
  · rename_i named
    exact .inr (.inr (.inl ⟨List.mem_singleton.2 named, rfl⟩))
  · exact .inr (.inr (.inr fun _ => rfl))

end Command

/-! ## Lines -/

namespace Line

variable {text : String} {names arguments : List String} {command : Command}

/-- Where a command that changes something comes from. -/
theorem command_cases (h : ofText text = .command command) :
    (∃ names, Names ["del", "delete"] text names ∧ command = .delete names) ∨
    (∃ arguments, Names ["angle", "angles"] text arguments ∧ command = .angle arguments) ∨
    (∃ arguments, Names ["output"] text arguments ∧ command = .output arguments) ∨
    ∀ session, (command.run session).2 = session := by
  rcases names_of_ofText h with rfl | rfl | ⟨name, arguments, named, rfl⟩
  · exact .inr (.inr (.inr fun _ => rfl))
  · exact .inr (.inr (.inr fun _ => rfl))
  · rcases Command.ofName_cases name arguments with ⟨mem, run⟩ | ⟨mem, run⟩ | ⟨mem, run⟩ | keeps
    · exact .inl ⟨_, named.of_singleton mem, run⟩
    · exact .inr (.inl ⟨_, named.of_singleton mem, run⟩)
    · exact .inr (.inr (.inl ⟨_, named.of_singleton mem, run⟩))
    · exact .inr (.inr (.inr keeps))

/-- The command of a line, if all the names it may be spelled by stand for the same one. -/
theorem eq_of_names {expected : Command} (h : ofText text = .command command)
    (spelled : Names names text arguments) (other : ∀ name ∈ names, name ∉ plainNames)
    (run : ∀ name ∈ names, Command.ofName name arguments = expected) : command = expected := by
  obtain ⟨name, mem, same⟩ := ofText_of_names other spelled
  exact (Line.command.inj (h.symm.trans same)).trans (run name mem)

/-- What a command line leaves as it was, and what it makes of what it names. -/
structure Frames (text : String) (before after : Session) : Prop where
  result : after.result = before.result
  vars : (∀ names, ¬Names ["del", "delete"] text names) → after.vars = before.vars
  deleted : ∀ names, Names ["del", "delete"] text names →
    after.vars.toList = before.vars.toList.filter (!·.isNamed names)
  settings : (∀ arguments, ¬Names ["angle", "angles"] text arguments) →
    (∀ arguments, ¬Names ["output"] text arguments) → after.settings = before.settings
  angle : ∀ arguments, Names ["angle", "angles"] text arguments →
    after.settings = match arguments.head?.bind AngleUnit.ofName? with
      | some unit => { before.settings with angleUnit := unit }
      | none => before.settings
  output : ∀ arguments, Names ["output"] text arguments →
    after.settings.angleUnit = before.settings.angleUnit ∧
    after.settings.format.number.style = before.settings.format.number.style ∧
    after.settings.format.number.exponentCase = before.settings.format.number.exponentCase ∧
    1 ≤ after.settings.format.number.digits ∧ after.settings.format.number.digits ≤ 50 ∧
    after.settings.format.number.digits =
      (arguments.filterMap Command.digits?).getLast?.getD before.settings.format.number.digits

theorem frames_run {session : Session} (named : session.vars.WellNamed)
    (h : ofText text = .command command) : Frames text session (command.run session).2 where
  result := by
    rcases command_cases h with ⟨_, -, rfl⟩ | ⟨_, -, rfl⟩ | ⟨_, -, rfl⟩ | keeps
    · rfl
    · rw [Command.run_angle]
      split <;> rfl
    · rfl
    · rw [keeps]
  vars other := by
    rcases command_cases h with ⟨names, spelled, -⟩ | ⟨_, -, rfl⟩ | ⟨_, -, rfl⟩ | keeps
    · exact absurd spelled (other names)
    · rw [Command.run_angle]
      split <;> rfl
    · rfl
    · rw [keeps]
  deleted names spelled := by
    obtain rfl : command = .delete names :=
      eq_of_names h spelled (by decide) (by simp [Command.ofName])
    rw [named.vars_run]
    exact named.toList_changes_delete names
  settings noAngle noOutput := by
    rcases command_cases h with ⟨_, -, rfl⟩ | ⟨_, spelled, -⟩ | ⟨_, spelled, -⟩ | keeps
    · rfl
    · exact absurd spelled (noAngle _)
    · exact absurd spelled (noOutput _)
    · rw [keeps]
  angle arguments spelled := by
    obtain rfl : command = .angle arguments :=
      eq_of_names h spelled (by decide) (by simp [Command.ofName])
    rw [Command.run_angle]
    split <;> rfl
  output arguments spelled := by
    obtain rfl : command = .output arguments :=
      eq_of_names h spelled (by decide) (by simp [Command.ofName])
    obtain ⟨style, letter, digits⟩ :=
      Command.adjusts_changeOutputs session.settings.format arguments
    exact ⟨rfl, style, letter, NumberFormat.one_le_digits _, NumberFormat.digits_le _, digits⟩

end Line

namespace Session

/-- Whatever has been done in a session, a line that asks to leave and one that is no command print
nothing and leave the session as it is, the latter for its evaluation; a command prints its answer
and changes what it names. -/
theorem submit_frames (settings : Settings) (actions : List Action) (text : String) :
    (Line.ofText text = .exit →
      ((withSettings settings).afterActions actions).submit text =
        (.exit, (withSettings settings).afterActions actions)) ∧
    (Line.ofText text = .expression →
      ((withSettings settings).afterActions actions).submit text =
        (.value (((withSettings settings).afterActions actions).evaluate text).1,
          (((withSettings settings).afterActions actions).evaluate text).2)) ∧
    ∀ command, Line.ofText text = .command command →
      ∃ output after, ((withSettings settings).afterActions actions).submit text =
        (.printed output, after) ∧
        Line.Frames text ((withSettings settings).afterActions actions) after := by
  have named : ((withSettings settings).afterActions actions).vars.WellNamed :=
    wellNamed_afterActions Variables.every_empty actions
  generalize (withSettings settings).afterActions actions = session at named
  refine ⟨fun line => ?_, fun line => submit_expression session line, fun command line => ?_⟩
  · unfold submit
    rw [line]
  · refine ⟨(command.run session).1, (command.run session).2, ?_, Line.frames_run named line⟩
    unfold submit
    rw [line]

end Session

end Calculator
