import Calculator.Proofs.Session.VariableMap
import Calculator.Proofs.Session.VariableNames
import Calculator.Proofs.Text.Case

/-!
# The changes of a session

A session changes its variables in two ways. A text carries the value of its expression along its
targets, from right to left and as far as their operations go, once every target is allowed. A
command deletes the variables that it names, or all of them. The store of a session is the one that
these changes build, so it answers as the map that they build, whatever the lines are and wherever
they fail.
-/

namespace Calculator

/-! ## Assignments -/

namespace Target

/-- The target is not reserved, and has an old value if its operation needs one. -/
def isAllowed (vars : Variables) (target : Target) : Bool :=
  !isReserved target.name && (target.current vars).isOk

/-- What the operation of a target makes of a value. -/
def result? (vars : Variables) (target : Target) (z : Complex) : Option Complex :=
  match target.current vars with
  | .ok old => (target.combine old z).toOption
  | .error _ => none

/-- The assignments that carry a value along a row of targets until an operation fails, and the
value at the end of the row. -/
def carry (vars : Variables) : List Target → Complex → List (String × Complex) × Option Complex
  | [], z => ([], some z)
  | target :: rest, z =>
    match target.result? vars z with
    | none => ([], none)
    | some v => ((target.name, v) :: (carry vars rest v).1, (carry vars rest v).2)

variable {vars : Variables}

theorem carry_concat_of_none {row : List Target} {z : Complex}
    (failed : (carry vars row z).2 = none) (target : Target) :
    carry vars (row ++ [target]) z = carry vars row z := by
  induction row generalizing z with
  | nil => cases failed
  | cons first rest ih =>
    rw [List.cons_append, carry, carry]
    rw [carry] at failed
    cases result : first.result? vars z with
    | none => rfl
    | some v =>
      rw [result] at failed
      simp only [ih failed]

theorem carry_concat_of_some {row : List Target} {z v : Complex}
    (carried : (carry vars row z).2 = some v) (target : Target) :
    carry vars (row ++ [target]) z =
      match target.result? vars v with
      | none => ((carry vars row z).1, none)
      | some w => ((carry vars row z).1 ++ [(target.name, w)], some w) := by
  induction row generalizing z with
  | nil =>
    cases carried
    have alone : carry vars [target] v = match target.result? vars v with
        | none => ([], none)
        | some w => ([(target.name, w)], some w) := rfl
    exact alone
  | cons first rest ih =>
    rw [List.cons_append, carry, carry]
    rw [carry] at carried
    cases result : first.result? vars z with
    | none =>
      rw [result] at carried
      cases carried
    | some w =>
      rw [result] at carried
      simp only [ih carried]
      cases target.result? vars v <;> rfl

end Target

/-- The changes that assignments make. -/
def Change.ofAssignments (done : List (String × Complex)) : List Change :=
  done.map fun entry => .assign entry.1 entry.2

/-- The assignments that a chain of targets carries out with a value, one after the other. -/
def assignments (vars : Variables) (value : Except EvalError Complex) (targets : List Target) :
    List (String × Complex) :=
  match value with
  | .error _ => []
  | .ok z =>
    if targets.all (Target.isAllowed vars) then (Target.carry vars targets.reverse z).1 else []

/-- The assignments that an evaluation of the text carries out. -/
def Session.assignments (session : Session) (text : String) : List (String × Complex) :=
  Calculator.assignments session.vars (bodyValue session text) (leadingTargets session text)

section

variable {vars : Variables} {value : Unit → Except EvalError Complex} {targets : List Target}

/-- Nothing is assigned if a target is not allowed or there is no value. -/
theorem assign_of_refused
    (refused : targets.all (Target.isAllowed vars) = false ∨ ∃ error, value () = .error error) :
    ∃ error, assign vars value targets = (.error error, vars) := by
  induction targets with
  | nil =>
    rcases refused with refused | ⟨error, failed⟩
    · cases refused
    · exact ⟨error, by rw [assign, failed]⟩
  | cons target rest ih =>
    rw [assign]
    split
    · exact ⟨_, rfl⟩
    · rename_i free
      split
      · exact ⟨_, rfl⟩
      · rename_i old current
        have allowed : target.isAllowed vars = true := by
          simp [Target.isAllowed, free, current, Except.isOk, Except.toBool]
        rw [List.all_cons, allowed, Bool.true_and] at refused
        obtain ⟨error, failed⟩ := ih refused
        exact ⟨error, by rw [failed]⟩

/-- Otherwise the value is carried along the targets from right to left. -/
theorem assign_of_allowed {z : Complex} (allowed : targets.all (Target.isAllowed vars) = true)
    (valued : value () = .ok z) :
    (assign vars value targets).1.toOption = (Target.carry vars targets.reverse z).2 ∧
      (assign vars value targets).2 =
        (Change.ofAssignments (Target.carry vars targets.reverse z).1).foldl Variables.change
          vars := by
  induction targets with
  | nil => simp [assign, valued, Target.carry, Change.ofAssignments, Except.toOption]
  | cons target rest ih =>
    rw [List.all_cons, Bool.and_eq_true] at allowed
    obtain ⟨here, others⟩ := allowed
    obtain ⟨answer, store⟩ := ih others
    rw [Target.isAllowed, Bool.and_eq_true, Bool.not_eq_true'] at here
    obtain ⟨free, old⟩ := here
    rw [List.reverse_cons, assign, if_neg (by simp [free])]
    cases current : target.current vars with
    | error error =>
      rw [current] at old
      cases old
    | ok old =>
      rcases carried : assign vars value rest with ⟨error | v, after⟩
      · rw [carried] at answer store
        rw [Target.carry_concat_of_none answer.symm]
        exact ⟨answer, store⟩
      · rw [carried] at answer store
        rw [Target.carry_concat_of_some answer.symm, Target.result?, current]
        dsimp only at store ⊢
        cases combined : target.combine old v with
        | error error => exact ⟨rfl, store⟩
        | ok w =>
          refine ⟨rfl, ?_⟩
          rw [store]
          simp [Except.toOption, Change.ofAssignments, Variables.change]

/-- A chain makes the assignments that are told of it. -/
theorem vars_assign (vars : Variables) (value : Unit → Except EvalError Complex)
    (targets : List Target) : (assign vars value targets).2 =
      (Change.ofAssignments (assignments vars (value ()) targets)).foldl Variables.change vars := by
  unfold assignments
  cases valued : value () with
  | error error =>
    obtain ⟨_, refused⟩ := @assign_of_refused vars value targets (.inr ⟨error, valued⟩)
    exact congrArg Prod.snd refused
  | ok z =>
    dsimp only
    split
    · rename_i allowed
      exact (assign_of_allowed allowed valued).2
    · rename_i forbidden
      obtain ⟨_, refused⟩ :=
        @assign_of_refused vars value targets (.inl (Bool.eq_false_iff.2 forbidden))
      exact congrArg Prod.snd refused

end

/-- An evaluation leaves the variables that its assignments make. -/
theorem vars_evaluate (session : Session) (text : String) :
    (session.evaluate text).2.vars =
      (Change.ofAssignments (session.assignments text)).foldl Variables.change session.vars := by
  unfold Session.assignments
  cases scanned : Token.scan session.lettering text with
  | error error =>
    have none : bodyValue session text = .error (.grammar error) := by
      simp only [bodyValue, scanned]
    rw [evaluate_of_scan_error scanned, none]
    rfl
  | ok tokens =>
    rcases run : (Statement.ofTokens session.lettering tokens).run session.scope with ⟨answer, vars⟩
    obtain ⟨_, assign, -⟩ :=
      run_eq_assign (Statement.ofTokens session.lettering tokens) session.scope
    rw [evaluate_eq_run scanned run, leadingTargets_of_scan scanned, bodyValue_of_scan scanned]
    have carried := congrArg Prod.snd assign
    rw [vars_assign, run] at carried
    exact (session.vars_after answer vars).trans carried.symm

/-! ## Deletions -/

/-- The changes that a command makes. A command that names variables deletes the named ones; what is
built in has no variable, so there is nothing to delete of it. -/
def Command.changes : Command → List Change
  | .delete [] => [.deleteAll]
  | .delete names => names.map .delete
  | _ => []

section

variable {vars : Variables} {session : Session}

/-- Every variable stands under its name in lower case, and no name is reserved. -/
abbrev Variables.WellNamed (vars : Variables) : Prop :=
  vars.Every (Calculator.WellNamed fun _ => True)

theorem Variables.WellNamed.keyedByName (h : vars.WellNamed) : vars.KeyedByName :=
  fun entry mem => (h entry mem).key_eq

theorem Variables.WellNamed.pairwise_names (h : vars.WellNamed) :
    (vars.toList.map fun v => Text.lowercase v.name).Pairwise (· < ·) := by
  rw [← h.keyedByName.keys_eq]
  exact vars.ordered

theorem Variables.WellNamed.lookup?_lowercase (h : vars.WellNamed) {v : Variable}
    (listed : v ∈ vars.toList) : vars.lookup? (Text.lowercase v.name) = some v :=
  h.keyedByName.find?_eq listed

/-- Variables whose names differ in the case of letters only are the same variable. -/
theorem Variables.WellNamed.eq_of_equalIgnoringCase (h : vars.WellNamed) {v w : Variable}
    (mem_v : v ∈ vars.toList) (mem_w : w ∈ vars.toList)
    (same : Text.equalIgnoringCase v.name w.name = true) : v = w := by
  have folded : Text.foldCase v.name = Text.foldCase w.name := Text.equalIgnoringCase_iff.1 same
  have keys : Text.lowercase v.name = Text.lowercase w.name := by
    rw [← Text.lowercase_foldCase v.name, folded, Text.lowercase_foldCase]
  have bound := h.lookup?_lowercase mem_v
  rw [keys, h.lookup?_lowercase mem_w] at bound
  exact (Option.some.inj bound).symm

/-- What is listed is what is bound. -/
theorem Variables.WellNamed.mem_toList_iff (h : vars.WellNamed) {v : Variable} :
    v ∈ vars.toList ↔ ∃ key, vars.lookup? key = some v := by
  constructor
  · intro listed
    exact ⟨_, h.lookup?_lowercase listed⟩
  · rintro ⟨key, bound⟩
    exact List.mem_map.2 ⟨_, Variables.mem_of_lookup? bound, rfl⟩

/-- No name is a reserved word, in whatever case of its letters. -/
theorem Variables.WellNamed.not_mem_reservedNames (h : vars.WellNamed) {v : Variable}
    (listed : v ∈ vars.toList) :
    isReserved v.name = false ∧ Text.lowercase v.name ∉ reservedNames := by
  obtain ⟨entry, mem, rfl⟩ := List.mem_map.1 listed
  have free : isReserved entry.2.name = false := (h entry mem).free
  exact ⟨free, fun reserved => lowercase_ne_of_free free reserved rfl⟩

/-- No variable stands under a reserved word. -/
theorem Variables.WellNamed.lookup?_eq_none (h : vars.WellNamed) {word : String}
    (reserved : word ∈ reservedNames) : vars.lookup? word = none := by
  cases found : vars.lookup? word with
  | none => rfl
  | some v =>
    have named := h _ (Variables.mem_of_lookup? found)
    exact absurd named.key_eq.symm (lowercase_ne_of_free named.free reserved)

theorem Variables.erase_of_unbound {name : String}
    (unbound : vars.lookup? (Text.lowercase name) = none) : vars.erase name = vars := by
  apply Variables.ext_entries
  rw [Variables.lookup?, Option.map_eq_none_iff, List.find?_eq_none] at unbound
  refine List.filter_eq_self.2 fun entry mem => ?_
  simpa using unbound entry mem

theorem Variables.WellNamed.deleteOne (h : vars.WellNamed) (name : String) :
    (Command.deleteOne vars name).2 = vars.erase name := by
  have builtIn (listed : Text.lowercase name ∈ reservedNames) : vars.erase name = vars :=
    Variables.erase_of_unbound (h.lookup?_eq_none listed)
  have results : ["res", "result"] ⊆ reservedNames := by decide
  have constants : ["e", "pi"] ⊆ reservedNames := by decide
  unfold Command.deleteOne
  dsimp only
  split
  · rename_i result
    exact (builtIn (results result)).symm
  · split
    · rename_i constant
      exact (builtIn (constants constant)).symm
    · unfold Variables.remove
      cases found : vars.find? name with
      | none => exact (Variables.erase_of_unbound found).symm
      | some v => rfl

theorem Variables.WellNamed.deleteEach (h : vars.WellNamed) (names : List String) :
    (Command.deleteEach vars names).2 = (names.map Change.delete).foldl Variables.change vars := by
  induction names generalizing vars with
  | nil => rfl
  | cons name rest ih =>
    have next := ih (h.erase name)
    rw [← h.deleteOne name] at next
    rw [List.map_cons, List.foldl_cons, Variables.change, ← h.deleteOne name]
    exact next

/-- A command leaves the variables that its changes make. -/
theorem Variables.WellNamed.vars_run (h : session.vars.WellNamed) (command : Command) :
    (command.run session).2.vars = command.changes.foldl Variables.change session.vars := by
  cases command with
  | delete names =>
    cases names with
    | nil => rfl
    | cons name rest => exact h.deleteEach (name :: rest)
  | angle arguments =>
    cases arguments with
    | nil => rfl
    | cons name rest =>
      have same : (Command.setAngle session (name :: rest)).2.vars = session.vars := by
        unfold Command.setAngle
        dsimp only
        split <;> rfl
      exact same
  | _ => rfl

end

/-! ## Sessions -/

/-- The changes that a text makes as a line of this kind. -/
def Line.changes (session : Session) (text : String) : Line → List Change
  | .exit => []
  | .command c => c.changes
  | .expression => Change.ofAssignments (session.assignments text)

/-- What happens in a session: a line is submitted, a text is evaluated as it is, or other settings
are chosen. -/
inductive Session.Action where
  | line (text : String)
  | evaluation (text : String)
  | settings (settings : Settings)

namespace Session

/-- The session after an action. -/
def perform (session : Session) : Action → Session
  | .line text => (session.submit text).2
  | .evaluation text => (session.evaluate text).2
  | .settings settings => { session with settings }

/-- The changes of the variables that an action makes. -/
def changes (session : Session) : Action → List Change
  | .line text => (Line.ofText text).changes session text
  | .evaluation text => Change.ofAssignments (session.assignments text)
  | .settings _ => []

/-- The session after one action after the other. -/
def afterActions (session : Session) : List Action → Session
  | [] => session
  | action :: rest => (session.perform action).afterActions rest

/-- The changes that the actions make, one after the other. -/
def allChanges (session : Session) : List Action → List Change
  | [] => []
  | action :: rest => session.changes action ++ (session.perform action).allChanges rest

variable {session : Session}

theorem vars_submit (h : session.vars.WellNamed) (text : String) :
    (session.submit text).2.vars =
      ((Line.ofText text).changes session text).foldl Variables.change session.vars := by
  unfold submit
  split
  · rename_i line
    rw [line]
    rfl
  · rename_i command line
    rw [line]
    exact h.vars_run command
  · rename_i line
    rw [line]
    exact vars_evaluate session text

/-- An action makes its changes, and no others. -/
theorem vars_perform (h : session.vars.WellNamed) (action : Action) :
    (session.perform action).vars =
      (session.changes action).foldl Variables.change session.vars := by
  cases action with
  | line text =>
    rw [perform, changes]
    exact vars_submit h text
  | evaluation text =>
    rw [perform, changes]
    exact vars_evaluate session text
  | settings settings => rfl

/-- The variables stay well named. -/
theorem wellNamed_perform (h : session.vars.WellNamed) (action : Action) :
    (session.perform action).vars.WellNamed := by
  have new (name : String) (spells : session.lettering.Spells name)
      (free : isReserved name = false) (z : Complex) :
      Calculator.WellNamed (fun _ => True) (Text.lowercase name) ⟨name, z⟩ :=
    ⟨rfl, free, session.lettering, trivial, spells⟩
  cases action with
  | line text =>
    rw [perform]
    exact h.submit text new
  | evaluation text =>
    rw [perform]
    exact h.evaluate text new
  | settings settings => exact h

theorem wellNamed_afterActions (h : session.vars.WellNamed) (actions : List Action) :
    (session.afterActions actions).vars.WellNamed := by
  induction actions generalizing session with
  | nil => exact h
  | cons action rest ih => exact ih (wellNamed_perform h action)

/-- The variables are those that the changes of all actions make. -/
theorem vars_afterActions (h : session.vars.WellNamed) (actions : List Action) :
    (session.afterActions actions).vars =
      (session.allChanges actions).foldl Variables.change session.vars := by
  induction actions generalizing session with
  | nil => rfl
  | cons action rest ih =>
    rw [afterActions, ih (wellNamed_perform h action), allChanges, List.foldl_append,
      vars_perform h action]

variable (settings : Settings) (actions : List Action)

/-- From a session without variables, the store answers as the map that the changes build. -/
theorem lookup?_afterActions :
    ((withSettings settings).afterActions actions).vars.lookup? =
      VariableMap.ofChanges ((withSettings settings).allChanges actions) := by
  have named : (withSettings settings).vars.WellNamed := Variables.every_empty
  rw [vars_afterActions named, Variables.lookup?_foldl_change]
  rfl

/-- Whatever is done in a session, its variables are listed in the order of their names in lower
case, each is the latest assignment to its name, and no name is reserved. The variables that are
listed are those bound in the map that the assignments and deletions build, and the store answers as
this map. -/
theorem variables_reflect_changes :
    (((withSettings settings).afterActions actions).vars.toList.map
        fun v => Text.lowercase v.name).Pairwise (· < ·) ∧
    (∀ v ∈ ((withSettings settings).afterActions actions).vars.toList,
      ∀ w ∈ ((withSettings settings).afterActions actions).vars.toList,
        Text.equalIgnoringCase v.name w.name = true → v = w) ∧
    (∀ entry ∈ ((withSettings settings).afterActions actions).vars.entries,
      entry.1 = Text.lowercase entry.2.name) ∧
    (∀ v ∈ ((withSettings settings).afterActions actions).vars.toList,
      isReserved v.name = false ∧ Text.lowercase v.name ∉ reservedNames) ∧
    (∀ v ∈ ((withSettings settings).afterActions actions).vars.toList, ∃ before after,
      (withSettings settings).allChanges actions = before ++ .assign v.name v.value :: after ∧
        ∀ c ∈ after, ¬c.Concerns (Text.lowercase v.name)) ∧
    (∀ v, v ∈ ((withSettings settings).afterActions actions).vars.toList ↔
      ∃ key, VariableMap.ofChanges ((withSettings settings).allChanges actions) key = some v) ∧
    ((withSettings settings).afterActions actions).vars.Reflects
      (VariableMap.ofChanges ((withSettings settings).allChanges actions)) := by
  have named : ((withSettings settings).afterActions actions).vars.WellNamed :=
    wellNamed_afterActions Variables.every_empty actions
  have map := lookup?_afterActions settings actions
  refine ⟨named.pairwise_names, fun v mem_v w mem_w => named.eq_of_equalIgnoringCase mem_v mem_w,
    fun entry mem => (named entry mem).key_eq, fun v mem => named.not_mem_reservedNames mem, ?_, ?_, ?_⟩
  · intro v mem
    have bound := named.lookup?_lowercase mem
    rw [map] at bound
    exact (VariableMap.ofChanges_eq_some_iff.1 bound).2
  · rw [← map]
    exact fun v => named.mem_toList_iff
  · rw [← map]
    exact Variables.reflects_lookup? _

/-- The latest assignment gives the spelling, and stays although the division after it fails. -/
example : ((withSettings .initial).afterActions
      [.line "Rate=2", .line "b=3", .line "b/=rATE=0", .line "a=e=5", .line "#del B"]).vars.toList =
    [⟨"rATE", .ofReal 0⟩] := by
  decide +kernel

end Session

end Calculator
