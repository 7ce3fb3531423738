import Calculator.Proofs.Error
import Calculator.Proofs.Grammar.Faults
import Calculator.Proofs.Session.Evaluation

/-!
# The faults that an evaluation reports

A text that is scanned is never refused for the form of a conversion, and for the form of a number
only where the imaginary part is marked twice. The readers find no other fault of this kind, and the
value of an expression fails for its numerals only if one of them is no number.
-/

namespace Calculator

/-- The error is that of a conversion or of a number that is not of its form. -/
def EvalError.isAboutForm : EvalError → Bool
  | .grammar .conversionForm | .grammar (.invalidNumber _) => true
  | _ => false

/-- The answer does not fail for the form of a conversion or of a number. -/
abbrev NotForForm {α : Type} (r : Except EvalError α) : Prop :=
  FailsWith (fun error => error.isAboutForm = false) r

/-! ## Expressions -/

section

variable {α : Type} {scope : Scope}

/-- An error of arithmetic is not about a form. -/
theorem notForForm_math (r : Except MathError α) :
    NotForForm (liftM r : Except EvalError α) := .mapError fun _ _ => rfl

/-- An error of a conversion is not about its form. -/
theorem notForForm_unit (r : Except UnitError α) : NotForForm (liftM r : Except EvalError α) := by
  refine .mapError fun error _ => ?_
  cases error <;> rfl

/-- A numeral that is of its form is refused for its size only. -/
theorem notForForm_numeralValue {text : String}
    (readable : Decimal.parse text ≠ .error .conversionImpossible) :
    NotForForm (numeralValue text) := by
  unfold numeralValue
  split
  · exact .ok _
  · rename_i refused
    exact absurd refused readable
  · exact .error rfl

/-- A name may be unknown. -/
theorem notForForm_nameValue (scope : Scope) (name : String) :
    NotForForm (scope.nameValue name) := by
  have result : NotForForm (liftM scope.lastResult : Except EvalError Complex) := by
    unfold Scope.lastResult
    split
    · exact .ok _
    · exact .error rfl
  have stored : NotForForm (liftM (scope.vars.get name) : Except EvalError Complex) := by
    unfold Variables.get
    split
    · exact .ok _
    · exact .error rfl
  unfold Scope.nameValue
  dsimp only
  split
  · exact .ok _
  · split
    · exact .ok _
    · split
      · exact result
      · exact stored

/-- A conversion fails for its units or in arithmetic. -/
theorem notForForm_convertUnit (source target : String) (z : Complex) :
    NotForForm (convertUnit source target z) := by
  unfold convertUnit
  exact .guard (fun _ => rfl) fun _ => (notForForm_unit _).bind fun _ _ => .ok _

theorem notForForm_convertAngle (function : String) (source target : AngleUnit) (angle : Complex) :
    NotForForm (convertAngle function source target angle) := by
  unfold convertAngle
  split
  · exact .ok _
  · exact .guard (fun _ => rfl) fun _ => (notForForm_unit _).bind fun _ _ => .ok _

/-- A function may be unknown or take another number of arguments. -/
theorem notForForm_find (name : String) (arity : Nat) :
    NotForForm (liftM (BuiltIn.find name arity) : Except EvalError BuiltIn) := by
  unfold BuiltIn.find
  split
  · exact .ok _
  · exact .error rfl

/-- A function fails in arithmetic. -/
theorem notForForm_apply (f : BuiltIn) (unit : AngleUnit) (arguments : List Complex) :
    NotForForm (f.apply unit arguments) := by
  unfold BuiltIn.apply
  split
  · exact notForForm_math _
  · split
    · exact notForForm_math _
    · exact (notForForm_convertAngle _ _ _ _).bind fun _ _ => notForForm_math _
  · exact (notForForm_math _).bind fun _ _ => notForForm_convertAngle _ _ _ _

/-- The numerals among the tokens are read, or refused for their size. -/
def Readable (tokens : List Token) : Prop :=
  ∀ text, .number text ∈ tokens → Decimal.parse text ≠ .error .conversionImpossible

/-- A number fails for its size only where its numerals can be read. -/
theorem notForForm_literal {number : Literal} (h : Readable number.tokens) :
    NotForForm number.value := by
  cases number with
  | numeral text =>
    have mem : .number text ∈ (Literal.numeral text).tokens := by simp [Literal.tokens]
    rw [Literal.value]
    exact (notForForm_numeralValue (h text mem)).bind fun _ _ => .ok _
  | marker => exact .ok _
  | imaginary text markerFirst =>
    have mem : .number text ∈ (Literal.imaginary text markerFirst).tokens := by
      cases markerFirst <;> simp [Literal.tokens]
    rw [Literal.value]
    exact (notForForm_numeralValue (h text mem)).bind fun _ _ => .ok _

mutual

/-- The value of an expression with readable numerals. -/
theorem Expr.notForForm_eval (scope : Scope) :
    ∀ e : Expr, Readable e.tokens → NotForForm (e.eval scope)
  | .literal number, h => by
    rw [Expr.eval]
    exact notForForm_literal h
  | .name text, _ => by
    rw [Expr.eval]
    exact notForForm_nameValue scope text
  | .call function arguments, h => by
    rw [Expr.eval]
    have inner : Readable arguments.tokens := fun text mem => h text (by simp [Expr.tokens, mem])
    refine (arguments.notForForm_eval scope inner).bind fun values _ => ?_
    exact (notForForm_find _ _).bind fun f _ => notForForm_apply f _ _
  | .group inner, h => by
    rw [Expr.eval]
    exact inner.notForForm_eval scope fun text mem => h text (by simp [Expr.tokens, mem])
  | .signed negative operand, h => by
    rw [Expr.eval]
    exact (operand.notForForm_eval scope fun text mem => h text (by simp [Expr.tokens, mem])).bind
      fun _ _ => .ok _
  | .convert operand source target, h => by
    rw [Expr.eval]
    exact (operand.notForForm_eval scope fun text mem => h text (by simp [Expr.tokens, mem])).bind
      fun z _ => notForForm_convertUnit source target z
  | .binary op left right, h => by
    rw [Expr.eval]
    refine (left.notForForm_eval scope fun text mem => h text (by simp [Expr.tokens, mem])).bind
      fun z _ => ?_
    exact (right.notForForm_eval scope fun text mem => h text (by simp [Expr.tokens, mem])).bind
      fun w _ => notForForm_math _

/-- The values of arguments with readable numerals. -/
theorem Arguments.notForForm_eval (scope : Scope) :
    ∀ arguments : Arguments, Readable arguments.tokens → NotForForm (arguments.eval scope)
  | .last argument, h => by
    rw [Arguments.eval]
    exact (argument.notForForm_eval scope h).bind fun _ _ => .ok _
  | .cons argument rest, h => by
    rw [Arguments.eval]
    refine (argument.notForForm_eval scope fun text mem => h text (by simp [Arguments.tokens, mem])).bind
      fun z _ => ?_
    exact (rest.notForForm_eval scope fun text mem => h text (by simp [Arguments.tokens, mem])).bind
      fun _ _ => .ok _

end

/-- The expressions in front of a fault fail first, if they fail; else the fault is what is told. -/
theorem Broken.failsWith_eval {broken : Broken} {tokens : List Token} (h : Readable tokens)
    (complete : ∀ e ∈ broken.complete, e.tokens ⊆ tokens) :
    FailsWith (fun error => error.isAboutForm = false ∨ error = .grammar broken.fault)
      (broken.eval scope) := by
  have front : NotForForm (broken.complete.mapM (Expr.eval scope)) := by
    generalize broken.complete = es at complete
    induction es with
    | nil => exact .ok _
    | cons e es ih =>
      rw [List.mapM_cons]
      have inner : Readable e.tokens :=
        fun text mem => h text (complete e List.mem_cons_self mem)
      refine (e.notForForm_eval scope inner).bind fun _ _ => ?_
      exact (ih fun e mem => complete e (List.mem_cons_of_mem _ mem)).bind fun _ _ => .ok _
  exact (front.mono fun _ => .inl).bind fun _ _ => .error (.inr rfl)

end

/-! ## Statements -/

section

variable {P : EvalError → Prop} {scope : Scope}

/-- A target may be reserved or unknown. -/
theorem notForForm_current (target : Target) (vars : Variables) :
    FailsWith (fun error => (EvalError.grammar error).isAboutForm = false)
      (target.current vars) := by
  have stored : FailsWith (fun error => (EvalError.grammar error).isAboutForm = false)
      (vars.get target.name) := by
    unfold Variables.get
    split
    · exact .ok _
    · exact .error rfl
  unfold Target.current
  split
  · exact .ok _
  · exact stored.bind fun _ _ => .ok _

/-- Assignments fail as their value does, or for names, variables and operations. -/
theorem failsWith_assign (vars : Variables) (plain : ∀ error, error.isAboutForm = false → P error)
    (value : Unit → Except EvalError Complex) (valued : FailsWith P (value ())) :
    ∀ targets, FailsWith P (assign vars value targets).1
  | [] => valued
  | target :: rest => by
    rw [assign]
    split
    · exact .error (plain _ rfl)
    · split
      · rename_i error unknown
        exact .error (plain _ (notForForm_current target vars error unknown))
      · have behind := failsWith_assign vars plain value valued rest
        split
        · rename_i error _ failed
          rw [failed] at behind
          exact .error (behind error rfl)
        · split
          · exact .error (plain _ rfl)
          · exact .ok _

/-- What is left over after a statement is not a fault of form. -/
theorem notForForm_surplusError {tokens : List Token} {error : GrammarError}
    (h : Statement.surplusError tokens = some error) :
    (EvalError.grammar error).isAboutForm = false := by
  unfold Statement.surplusError at h
  split at h <;> cases h <;> rfl

/-- A statement fails as its value does, or for its targets, or for the tokens after it. -/
theorem Statement.failsWith_run {s : Statement}
    (plain : ∀ error, error.isAboutForm = false → P error)
    (valued : FailsWith P (s.value scope))
    (surplus : ∀ error, s.surplus = some error → (EvalError.grammar error).isAboutForm = false) :
    FailsWith P (s.run scope).1 := by
  have assigned := failsWith_assign scope.vars plain (fun _ => s.value scope) valued s.targets
  rw [Statement.run]
  split
  · rename_i error _ failed
    rw [failed] at assigned
    exact .error (assigned error rfl)
  · split
    · rename_i error found
      exact .error (plain _ (surplus error found))
    · exact .ok _

end

/-! ## Texts -/

/-- The targets are taken off the front. -/
theorem takeTargets_suffix (tokens : List Token) : (Statement.takeTargets tokens).2 <:+ tokens := by
  fun_induction Statement.takeTargets tokens with
  | case1 name op rest targets behind taken ih =>
    rw [taken] at ih
    exact ih.trans (List.suffix_append [_, _] rest)
  | case2 tokens => exact List.suffix_refl _

/-- The targets have no conversions among them. -/
theorem WholeConversions.takeTargets {tokens : List Token} (h : WholeConversions tokens) :
    WholeConversions (Statement.takeTargets tokens).2 := by
  fun_induction Statement.takeTargets tokens with
  | case1 name op rest targets behind taken ih =>
    rw [taken] at ih
    exact ih ((h.tail rfl).tail rfl)
  | case2 tokens => exact h

/-- A fault of an evaluation of these tokens is one that they have. -/
def EvalError.FitsTokens (tokens : List Token) (error : EvalError) : Prop :=
  ∀ fault, error = .grammar fault → fault.FitsTokens tokens

/-- An error that is not about a form fits any tokens. -/
theorem EvalError.FitsTokens.of_plain {tokens : List Token} {error : EvalError}
    (h : error.isAboutForm = false) : error.FitsTokens tokens := by
  rintro fault rfl
  refine .of_ne ?_ fun text => ?_
  · rintro rfl
    cases h
  · rintro rfl
    cases h

/-- The statement that whole conversions and readable numerals make up fails for a fault that its
tokens have, or for none of their form. -/
theorem Statement.failsWith_ofTokens (l : Lettering) (scope : Scope) {tokens : List Token}
    (whole : WholeConversions tokens) (readable : Readable tokens) :
    FailsWith (EvalError.FitsTokens tokens) ((Statement.ofTokens l tokens).run scope).1 := by
  have suffix := takeTargets_suffix tokens
  have reads := Expr.orderly_read _ whole.takeTargets
  have readable : Readable (Statement.takeTargets tokens).2 :=
    fun text mem => readable text (suffix.subset mem)
  have valued {broken : Broken}
      (complete : ∀ e ∈ broken.complete, e.tokens ⊆ (Statement.takeTargets tokens).2)
      (fault : broken.fault.FitsTokens (Statement.takeTargets tokens).2) :
      FailsWith (EvalError.FitsTokens tokens) (broken.eval scope) := by
    refine (Broken.failsWith_eval readable complete).mono fun error => ?_
    rintro (plain | rfl)
    · exact .of_plain plain
    · rintro _ ⟨⟩
      exact fault.mono suffix.isInfix
  rw [Statement.ofTokens]
  dsimp only
  generalize (Statement.takeTargets tokens).2 = rest at reads readable valued ⊢
  split
  · refine Statement.failsWith_run (fun _ => .of_plain) (valued (by simp) ?_) (by simp)
    exact .of_ne (by simp) (by simp)
  · generalize Expr.read rest = reading at reads ⊢
    cases reads with
    | error complete fault =>
      exact Statement.failsWith_run (fun _ => .of_plain) (valued complete fault) (by simp)
    | ok taken behind =>
      rename_i e surplus
      have inner : Readable e.tokens :=
        fun text mem => readable text (taken ▸ List.mem_append_left _ mem)
      exact Statement.failsWith_run (fun _ => .of_plain)
        ((e.notForForm_eval scope inner).mono fun _ => .of_plain)
        fun error => notForForm_surplusError

/-- The conversions among the tokens of a text are whole, and its numerals are numbers, though they
may be too large or too small. So no evaluation of the text fails for the form of a conversion, and
one that fails for the form of a number does so for a doubled marker of the imaginary part. -/
theorem evaluate_faults_of_scan (session : Session) (text : String) (tokens : List Token)
    (scanned : Token.scan session.lettering text = .ok tokens) :
    WholeConversions tokens ∧
    (∀ numeral, .number numeral ∈ tokens →
      Decimal.parse numeral ≠ .error .conversionImpossible) ∧
    ∀ error, (session.evaluate text).1 = .error (.grammar error) →
      error ≠ .conversionForm ∧
      ∀ numeral, error = .invalidNumber numeral → DoubledMarker numeral tokens := by
  have whole := Token.wholeConversions_scan scanned
  have readable : Readable tokens := fun numeral mem =>
    Token.parse_ne_conversionImpossible (Token.isWritable_of_mem_scan scanned mem)
  refine ⟨whole, readable, fun error failed => ?_⟩
  rw [evaluate_value scanned] at failed
  have fits := Statement.failsWith_ofTokens session.lettering session.scope whole readable
    _ failed error rfl
  exact ⟨fits.conversion, fits.number⟩

theorem evaluate_faults_of_scan_doubled_marker :
    ∃ tokens, Token.scan Session.new.lettering "3[km->m] + i2i" = .ok tokens ∧
      WholeConversions tokens ∧
      (Session.new.evaluate "3[km->m] + i2i").1 = .error (.grammar (.invalidNumber "2")) ∧
      DoubledMarker "2" tokens := by
  have scanned : Token.scan Session.new.lettering "3[km->m] + i2i" =
      .ok [.number "3", .openSquare, .unit "km", .arrow, .unit "m", .closeSquare, .plus,
        .imaginaryOne, .number "2", .imaginaryOne] := by decide +kernel
  have failed : (Session.new.evaluate "3[km->m] + i2i").1 =
      .error (.grammar (.invalidNumber "2")) := by decide +kernel
  obtain ⟨whole, -, fits⟩ := evaluate_faults_of_scan Session.new "3[km->m] + i2i" _ scanned
  exact ⟨_, scanned, whole, failed, (fits _ failed).2 "2" rfl⟩

end Calculator
