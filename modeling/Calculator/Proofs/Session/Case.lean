import Calculator.Proofs.Grammar.Case
import Calculator.Proofs.Numeral.Case
import Calculator.Proofs.Session.Evaluation

/-!
# Letter case in evaluations

An evaluation does not see the case of ASCII letters. Everything that a text is asked about, which
variable, constant, function or unit it names and which number it denotes, has the same answer in
small letters, so a whole evaluation commutes with making capitals small: in the text, in the
names that variables are shown with, and in what an error is about (`evaluate_foldCase`).
-/

namespace Calculator

variable {α β : Type}

/-! ## Answers -/

/-- The error about a text in small letters. -/
def UnitError.foldCase : UnitError → UnitError
  | .unknownUnit name => .unknownUnit (Text.foldCase name)
  | .unknownConversion source target =>
    .unknownConversion (Text.foldCase source) (Text.foldCase target)
  | .arithmetic error => .arithmetic error

/-- The error about a text in small letters; a numeric cause is about no text. -/
def EvalError.foldCase : EvalError → EvalError
  | .math error => .math error
  | .grammar error => .grammar error.foldCase

/-- The answer with its error in small letters. -/
abbrev foldAnswer (answer : Except EvalError α) : Except EvalError α :=
  answer.mapError EvalError.foldCase

/-- Answers in small letters are put together to an answer in small letters. -/
theorem bind_foldAnswer {x x' : Except EvalError α} {f f' : α → Except EvalError β}
    (first : x' = foldAnswer x) (next : ∀ a, f' a = foldAnswer (f a)) :
    x' >>= f' = foldAnswer (x >>= f) := by
  rw [first]
  cases x with
  | error error => rfl
  | ok a => exact next a

/-- The error of a conversion is told in small letters. -/
theorem EvalError.foldCase_ofUnitError (error : UnitError) :
    (ofUnitError error).foldCase = ofUnitError error.foldCase := by
  cases error with
  | unknownConversion source target =>
    have joined : Text.foldCase s!"{source}->{target}" =
        s!"{Text.foldCase source}->{Text.foldCase target}" := by
      simp only [Text.foldCase_append]
      rfl
    exact congrArg (fun text => EvalError.grammar (.unknownConversion text)) joined
  | _ => rfl

/-! ## Numbers -/

theorem numeralValue_foldCase (text : String) :
    numeralValue (Text.foldCase text) = foldAnswer (numeralValue text) := by
  unfold numeralValue
  rw [Decimal.parse_foldCase]
  rcases Decimal.parse text with error | x
  · cases error <;> rfl
  · rfl

/-- A number in small letters has the same value. -/
theorem Literal.value_foldCase (number : Literal) :
    number.foldCase.value = foldAnswer number.value := by
  cases number with
  | marker => rfl
  | numeral text | imaginary text =>
    rw [foldCase, value, numeralValue_foldCase, value]
    cases numeralValue text <;> rfl

/-! ## Functions and units -/

/-- Functions are found by their names in any case. -/
theorem BuiltIn.find_foldCase (name : String) (arity : Nat) :
    find (Text.foldCase name) arity = (find name arity).mapError GrammarError.foldCase := by
  simp only [find, answersTo, Text.equalIgnoringCase_foldCase]
  cases table.find? _ <;> rfl

/-- Units are found by their names in any case. -/
theorem MeasureUnit.ofName?_foldCase (name : String) :
    ofName? (Text.foldCase name) = ofName? name := by
  rw [ofName?, Text.lowercase_foldCase, ofName?]

/-- Units are converted by their names in any case. -/
theorem Decimal.convert_foldCase (x : Decimal) (source target : String) :
    x.convert (Text.foldCase source) (Text.foldCase target) =
      (x.convert source target).mapError UnitError.foldCase := by
  simp only [convert, MeasureUnit.ofName?_foldCase]
  cases MeasureUnit.ofName? source with
  | none => rfl
  | some a =>
    cases MeasureUnit.ofName? target with
    | none => rfl
    | some b =>
      dsimp only
      rcases MeasureUnit.convert? a b x with _ | ⟨error | y⟩ <;> rfl

theorem convertUnit_foldCase (source target : String) (z : Complex) :
    convertUnit (Text.foldCase source) (Text.foldCase target) z =
      foldAnswer (convertUnit source target z) := by
  unfold convertUnit
  cases z.isReal with
  | false =>
    have joined : Text.foldCase s!"[{source}->{target}]" =
        s!"[{Text.foldCase source}->{Text.foldCase target}]" := by
      simp only [Text.foldCase_append]
      rfl
    show Except.error (EvalError.grammar (.complexConversion _)) =
      Except.error (EvalError.grammar (.complexConversion (Text.foldCase _)))
    rw [joined]
  | true =>
    simp only [Decimal.convert_foldCase]
    cases z.re.convert source target with
    | error error =>
      exact congrArg Except.error (EvalError.foldCase_ofUnitError error).symm
    | ok x => rfl

/-- The units of angles have small names. -/
theorem convertAngle_foldCase (function : String) (source target : AngleUnit) (angle : Complex) :
    foldAnswer (convertAngle function source target angle) =
      convertAngle function source target angle := by
  have names (unit : AngleUnit) : Text.foldCase unit.unitName = unit.unitName := by
    cases unit <;> rfl
  have conversion := angle.re.convert_foldCase source.unitName target.unitName
  rw [names, names] at conversion
  unfold convertAngle
  split
  · rfl
  · cases angle.isReal with
    | false => rfl
    | true =>
      revert conversion
      cases angle.re.convert source.unitName target.unitName with
      | error error =>
        intro conversion
        have same : error = error.foldCase := Except.error.inj conversion
        show Except.error (EvalError.ofUnitError error).foldCase = _
        rw [EvalError.foldCase_ofUnitError, ← same]
        rfl
      | ok x => exact fun _ => rfl

/-- A function speaks of no text of the user. -/
theorem BuiltIn.foldAnswer_apply (f : BuiltIn) (unit : AngleUnit) (arguments : List Complex) :
    foldAnswer (f.apply unit arguments) = f.apply unit arguments := by
  unfold apply
  cases f.angle with
  | none => cases f.call arguments <;> rfl
  | argument =>
    cases arguments with
    | nil => cases f.call [] <;> rfl
    | cons angle rest =>
      refine (bind_foldAnswer (convertAngle_foldCase ..).symm fun angle => ?_).symm
      cases f.call (angle :: rest) <;> rfl
  | result =>
    have call : (liftM (f.call arguments) : Except EvalError Complex) =
        foldAnswer (liftM (f.call arguments)) := by
      cases f.call arguments <;> rfl
    exact (bind_foldAnswer call fun z => (convertAngle_foldCase ..).symm).symm

/-! ## Variables -/

namespace Variables

/-- The variable shown with its name in small letters. -/
def foldEntry (entry : String × Variable) : String × Variable :=
  (entry.1, { entry.2 with name := Text.foldCase entry.2.name })

/-- The variables with the names that they are shown with in small letters. -/
def foldCase (vars : Variables) : Variables :=
  ⟨vars.entries.map foldEntry, by rw [List.map_map]; exact vars.ordered⟩

/-- The entries are in the order of their keys, which are in lower case already. -/
theorem insertEntry_foldEntry (key : String) (v : Variable) (entries : List (String × Variable)) :
    insertEntry key (foldEntry (key, v)).2 (entries.map foldEntry) =
      (insertEntry key v entries).map foldEntry := by
  induction entries with
  | nil => rfl
  | cons entry rest ih =>
    obtain ⟨k, w⟩ := entry
    show (if key < k then foldEntry (key, v) :: foldEntry (k, w) :: rest.map foldEntry
      else if key = k then foldEntry (key, v) :: rest.map foldEntry
      else foldEntry (k, w) :: insertEntry key (foldEntry (key, v)).2 (rest.map foldEntry)) = _
    rw [ih, insertEntry, apply_ite (List.map foldEntry), apply_ite (List.map foldEntry)]
    rfl

/-- A variable is inserted under its name in any case. -/
theorem insert_foldCase (vars : Variables) (name : String) (z : Complex) :
    vars.foldCase.insert (Text.foldCase name) z = (vars.insert name z).foldCase := by
  apply ext_entries
  rw [insert, Text.lowercase_foldCase]
  exact insertEntry_foldEntry (Text.lowercase name) ⟨name, z⟩ vars.entries

/-- A variable is found by its name in any case. -/
theorem get_foldCase (vars : Variables) (name : String) :
    vars.foldCase.get (Text.foldCase name) = (vars.get name).mapError GrammarError.foldCase := by
  have keys : (fun entry => entry.1 == Text.lowercase name) ∘ foldEntry =
      fun entry => entry.1 == Text.lowercase name := rfl
  rw [get, find?, Text.lowercase_foldCase, lookup?, foldCase, List.find?_map, keys, get, find?,
    lookup?]
  cases vars.entries.find? fun entry => entry.1 == Text.lowercase name <;> rfl

end Variables

/-- The scope with the variables shown in small letters. -/
def Scope.foldCase (scope : Scope) : Scope := { scope with vars := scope.vars.foldCase }

/-- A name has the same value in any case. -/
theorem Scope.nameValue_foldCase (scope : Scope) (name : String) :
    scope.foldCase.nameValue (Text.foldCase name) = foldAnswer (scope.nameValue name) := by
  simp only [nameValue, Text.lowercase_foldCase]
  split
  · rfl
  · split
    · rfl
    · split
      · show (liftM scope.lastResult : Except EvalError Complex) = _
        rw [lastResult]
        cases scope.result <;> rfl
      · show (liftM (scope.vars.foldCase.get _) : Except EvalError Complex) = _
        rw [Variables.get_foldCase]
        cases scope.vars.get name <;> rfl

/-! ## Expressions -/

mutual

/-- The value of an expression in small letters. -/
theorem Expr.eval_foldCase (scope : Scope) :
    ∀ e : Expr, e.foldCase.eval scope.foldCase = foldAnswer (e.eval scope)
  | .literal number => number.value_foldCase
  | .name text => scope.nameValue_foldCase text
  | .call function arguments => by
    rw [Expr.foldCase, Expr.eval, Expr.eval]
    refine bind_foldAnswer (arguments.eval_foldCase scope) fun values => ?_
    rw [BuiltIn.find_foldCase]
    cases BuiltIn.find function values.length with
    | error error => rfl
    | ok f => exact (f.foldAnswer_apply scope.angleUnit values).symm
  | .group inner => inner.eval_foldCase scope
  | .signed negative operand => by
    rw [Expr.foldCase, Expr.eval, Expr.eval]
    exact bind_foldAnswer (operand.eval_foldCase scope) fun _ => rfl
  | .convert operand source target => by
    rw [Expr.foldCase, Expr.eval, Expr.eval]
    exact bind_foldAnswer (operand.eval_foldCase scope) (convertUnit_foldCase source target)
  | .binary op left right => by
    rw [Expr.foldCase, Expr.eval, Expr.eval]
    refine bind_foldAnswer (left.eval_foldCase scope) fun z => ?_
    refine bind_foldAnswer (right.eval_foldCase scope) fun w => ?_
    cases op.apply z w <;> rfl

/-- Arguments in small letters have the same values. -/
theorem Arguments.eval_foldCase (scope : Scope) :
    ∀ arguments : Arguments,
      arguments.foldCase.eval scope.foldCase = foldAnswer (arguments.eval scope)
  | .last argument => by
    rw [Arguments.foldCase, Arguments.eval, Arguments.eval]
    exact bind_foldAnswer (argument.eval_foldCase scope) fun _ => rfl
  | .cons argument rest => by
    rw [Arguments.foldCase, Arguments.eval, Arguments.eval]
    refine bind_foldAnswer (argument.eval_foldCase scope) fun z => ?_
    exact bind_foldAnswer (rest.eval_foldCase scope) fun _ => rfl

end

/-- What is evaluated in front of a fault is evaluated alike. -/
theorem Broken.eval_foldCase (scope : Scope) (broken : Broken) :
    broken.foldCase.eval scope.foldCase = foldAnswer (broken.eval scope) := by
  have complete (es : List Expr) :
      (es.map Expr.foldCase).mapM (Expr.eval scope.foldCase) =
        foldAnswer (es.mapM (Expr.eval scope)) := by
    induction es with
    | nil => rfl
    | cons e es ih =>
      rw [List.map_cons, List.mapM_cons, List.mapM_cons]
      refine bind_foldAnswer (e.eval_foldCase scope) fun z => ?_
      exact bind_foldAnswer ih fun _ => rfl
  rw [eval, foldCase, eval]
  exact bind_foldAnswer (complete broken.complete) fun _ => rfl

/-! ## Statements -/

/-- A name is reserved in any case of its letters. -/
theorem isReserved_foldCase (name : String) : isReserved (Text.foldCase name) = isReserved name := by
  simp only [isReserved, Text.equalIgnoringCase_foldCase]

/-- A target has the same value in any case. -/
theorem Target.current_foldCase (target : Target) (vars : Variables) :
    target.foldCase.current vars.foldCase =
      (target.current vars).mapError GrammarError.foldCase := by
  obtain ⟨name, op⟩ := target
  cases op with
  | set => rfl
  | _ =>
    show some <$> vars.foldCase.get (Text.foldCase name) =
      (some <$> vars.get name).mapError GrammarError.foldCase
    rw [Variables.get_foldCase]
    cases vars.get name <;> rfl

/-- An answer and the variables after it, in small letters. -/
abbrev foldOutcome : Except EvalError Complex × Variables → Except EvalError Complex × Variables :=
  Prod.map foldAnswer Variables.foldCase

theorem foldOutcome_ok (z : Complex) (vars : Variables) :
    foldOutcome (.ok z, vars) = (.ok z, vars.foldCase) := rfl

/-- Assignments to names in small letters leave the same variables. -/
theorem assign_foldCase (vars : Variables) (value value' : Unit → Except EvalError Complex)
    (same : value' () = foldAnswer (value ())) (targets : List Target) :
    assign vars.foldCase value' (targets.map Target.foldCase) =
      foldOutcome (assign vars value targets) := by
  induction targets with
  | nil => exact congrArg (·, vars.foldCase) same
  | cons target rest ih =>
    have reserved : isReserved target.foldCase.name = isReserved target.name :=
      isReserved_foldCase target.name
    rw [List.map_cons, assign, ih, reserved, assign]
    split
    · rfl
    · cases found : target.current vars with
      | error error =>
        rw [target.current_foldCase, found]
        rfl
      | ok old =>
        have current : target.foldCase.current vars.foldCase = .ok old := by
          rw [target.current_foldCase, found]
          rfl
        rw [current]
        dsimp only
        rcases assign vars value rest with ⟨error | z, after⟩
        · rfl
        · have combine : target.foldCase.combine old z = target.combine old z := rfl
          rw [foldOutcome_ok]
          dsimp only
          rw [combine]
          rcases target.combine old z with error | z
          · rfl
          · exact congrArg (Prod.mk (Except.ok z)) (after.insert_foldCase target.name z)

/-- A statement in small letters has the same value. -/
theorem Statement.value_foldCase (s : Statement) (scope : Scope) :
    s.foldCase.value scope.foldCase = foldAnswer (s.value scope) := by
  obtain ⟨targets, broken | e, surplus⟩ := s
  · exact broken.eval_foldCase scope
  · exact e.eval_foldCase scope

/-- A run in small letters. -/
theorem Statement.run_foldCase (s : Statement) (scope : Scope) :
    s.foldCase.run scope.foldCase = foldOutcome (s.run scope) := by
  have assigned : assign scope.foldCase.vars (fun _ => s.foldCase.value scope.foldCase)
      s.foldCase.targets = foldOutcome (assign scope.vars (fun _ => s.value scope) s.targets) :=
    assign_foldCase scope.vars _ _ (s.value_foldCase scope) s.targets
  rw [run, assigned, run]
  rcases assign scope.vars (fun _ => s.value scope) s.targets with ⟨error | z, vars⟩
  · rfl
  · rw [foldOutcome_ok]
    obtain ⟨targets, body, surplus⟩ := s
    cases surplus <;> rfl

/-! ## Sessions -/

/-- The session with its variables shown in small letters. -/
def Session.foldCase (session : Session) : Session := { session with vars := session.vars.foldCase }

/-- An evaluation in small letters: of the text, in a session that shows its variables in small
letters, is the evaluation with its answer and the session after it in small letters. -/
theorem evaluate_foldCase (session : Session) (text : String) :
    session.foldCase.evaluate (Text.foldCase text) =
      Prod.map foldAnswer Session.foldCase (session.evaluate text) := by
  have small := Token.scan_foldCase session.lettering text
  cases scanned : Token.scan session.lettering text with
  | error error =>
    rw [scanned] at small
    rw [evaluate_of_scan_error scanned, @evaluate_of_scan_error session.foldCase _ _ small]
    rfl
  | ok tokens =>
    rw [scanned] at small
    rcases run : (Statement.ofTokens session.lettering tokens).run session.scope with ⟨answer, vars⟩
    have run' : (Statement.ofTokens session.foldCase.lettering (tokens.map Token.foldCase)).run
        session.foldCase.scope = foldOutcome (answer, vars) := by
      rw [← run, ← Statement.run_foldCase, ← Statement.ofTokens_foldCase]
      rfl
    rw [evaluate_eq_run scanned run, @evaluate_eq_run session.foldCase _ _ small _ _ run']
    cases answer <;> rfl

/-- A history in small letters. -/
theorem history_foldCase (session : Session) (texts : List String) :
    session.foldCase.history (texts.map Text.foldCase) =
      (session.history texts).map (Prod.map foldAnswer Session.foldCase) := by
  induction texts generalizing session with
  | nil => rfl
  | cons text rest ih =>
    rw [List.map_cons, Session.history, evaluate_foldCase, Session.history, List.map_cons]
    exact congrArg _ (ih _)

/-- Texts that differ only in the case of ASCII letters are evaluated alike: to the same value, or
to the same error about the same text but for its case; and the sessions after them are the same
but for the case of the names that variables are shown with. -/
theorem evaluate_ignores_case (session : Session) {s t : String}
    (same : Text.equalIgnoringCase s t = true) :
    (session.evaluate s).1.mapError EvalError.foldCase =
        (session.evaluate t).1.mapError EvalError.foldCase ∧
      (session.evaluate s).2.foldCase = (session.evaluate t).2.foldCase := by
  have evaluations := evaluate_foldCase session s
  rw [Text.equalIgnoringCase_iff.1 same, evaluate_foldCase] at evaluations
  exact ⟨(congrArg Prod.fst evaluations).symm, (congrArg Prod.snd evaluations).symm⟩

theorem evaluate_ignores_case_of_assignment :
    Text.equalIgnoringCase "Rate = 2E1[Km->M]" "rATE = 2e1[kM->m]" = true ∧
      (Session.new.evaluate "Rate = 2E1[Km->M]").1.mapError EvalError.foldCase =
        (Session.new.evaluate "rATE = 2e1[kM->m]").1.mapError EvalError.foldCase ∧
      (Session.new.evaluate "Rate = 2E1[Km->M]").2.foldCase =
        (Session.new.evaluate "rATE = 2e1[kM->m]").2.foldCase :=
  ⟨by decide, evaluate_ignores_case Session.new (by decide)⟩

end Calculator
