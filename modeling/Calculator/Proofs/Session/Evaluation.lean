import Calculator.Proofs.Session.Assignment
import Calculator.Session.Basic

/-!
# The effect of an evaluation

What a session is after an evaluation, whether it succeeds or fails and wherever it fails,
and that a parser carries nothing from one evaluation to the next.
-/

namespace Calculator

/-! ## The parts of a text -/

/-- The assignments that a text begins with; text that cannot be scanned has none. -/
def leadingTargets (session : Session) (text : String) : List Target :=
  match Token.scan session.lettering text with
  | .ok tokens => (Statement.takeTargets tokens).1
  | .error _ => []

/-- The value of the expression after the assignments of a text. -/
def bodyValue (session : Session) (text : String) : Except EvalError Complex :=
  match Token.scan session.lettering text with
  | .ok tokens => (Statement.ofTokens session.lettering tokens).value session.scope
  | .error error => .error (.grammar error)

theorem targets_ofTokens (l : Lettering) (tokens : List Token) :
    (Statement.ofTokens l tokens).targets = (Statement.takeTargets tokens).1 := by
  rw [Statement.ofTokens]
  dsimp only
  split
  · rfl
  · split <;> rfl

theorem leadingTargets_of_scan {session : Session} {text : String} {tokens : List Token}
    (scanned : Token.scan session.lettering text = .ok tokens) :
    leadingTargets session text = (Statement.ofTokens session.lettering tokens).targets := by
  rw [targets_ofTokens]
  simp only [leadingTargets, scanned]

theorem bodyValue_of_scan {session : Session} {text : String} {tokens : List Token}
    (scanned : Token.scan session.lettering text = .ok tokens) :
    bodyValue session text =
      (Statement.ofTokens session.lettering tokens).value session.scope := by
  simp only [bodyValue, scanned]

/-! ## The effect -/

/-- The assignments that an evaluation with this answer carries out on the variables: those of a
suffix of the chain, and of the whole chain if there is a value. Nothing is carried out unless the
expression has a value. -/
structure Commits (session : Session) (text : String) (answer : Except EvalError Complex)
    (after : Variables) (suffix : List Target) (done : List (String × Complex)) : Prop where
  within : suffix <:+ leadingTargets session text
  carried : ∃ z v, Carried session.vars z suffix done v ∧
    (suffix = [] ∨ bodyValue session text = .ok z) ∧ ∀ w, answer = .ok w → w = v
  committed : after = session.vars.commit done
  whole : ∀ w, answer = .ok w → suffix = leadingTargets session text

/-- What an evaluation of the text with this answer leaves of a session. -/
structure Effect (session : Session) (text : String) (answer : Except EvalError Complex)
    (after : Session) : Prop where
  settings : after.settings = session.settings
  result : after.result = match answer with
    | .ok v => some v
    | .error _ => session.result
  unscanned : ∀ error, Token.scan session.lettering text = .error error →
    answer = .error (.grammar error) ∧ after = session
  assignments : ∃ suffix done, Commits session text answer after.vars suffix done ∧
    ∀ key, (∀ target ∈ suffix, Text.lowercase target.name ≠ key) →
      after.vars.lookup? key = session.vars.lookup? key
  bound : ∀ v, answer = .ok v → ∀ target ∈ (leadingTargets session text).head?,
    after.vars.find? target.name = some ⟨target.name, v⟩

/-- The variables of a run are those that the assignments leave, whatever comes after them. -/
theorem run_eq_assign (s : Statement) (scope : Scope) :
    ∃ answer, assign scope.vars (fun _ => s.value scope) s.targets = (answer, (s.run scope).2) ∧
      ∀ v, (s.run scope).1 = .ok v → answer = .ok v := by
  rw [Statement.run]
  rcases assign scope.vars (fun _ => s.value scope) s.targets with ⟨error | z, vars⟩
  · exact ⟨.error error, rfl, fun _ h => nomatch h⟩
  · dsimp only
    split
    · exact ⟨.ok z, rfl, fun _ h => nomatch h⟩
    · exact ⟨.ok z, rfl, fun _ h => h⟩

/-- A variable other than the targets keeps its value and its spelling. -/
theorem Commits.others {session : Session} {text : String} {answer : Except EvalError Complex}
    {after : Variables} {suffix : List Target} {done : List (String × Complex)}
    (h : Commits session text answer after suffix done) {key : String}
    (other : ∀ target ∈ suffix, Text.lowercase target.name ≠ key) :
    after.lookup? key = session.vars.lookup? key := by
  obtain ⟨z, v, carried, -⟩ := h.carried
  rw [h.committed]
  refine Variables.lookup?_commit_of_notMem _ fun entry mem => ?_
  have named : entry.1 ∈ suffix.map Target.name := carried.names ▸ List.mem_map_of_mem mem
  obtain ⟨target, within, same⟩ := List.mem_map.1 named
  exact same ▸ other target within

/-- The first target is bound to the value of the line. -/
theorem Commits.bound {session : Session} {text : String} {answer : Except EvalError Complex}
    {after : Variables} {suffix : List Target} {done : List (String × Complex)}
    (h : Commits session text answer after suffix done) {v : Complex} (value : answer = .ok v)
    {target : Target} (first : target ∈ (leadingTargets session text).head?) :
    after.find? target.name = some ⟨target.name, v⟩ := by
  obtain ⟨z, w, carried, -, same⟩ := h.carried
  obtain rfl := same v value
  rw [← h.whole v value] at first
  rw [h.committed]
  cases carried with
  | nil => cases first
  | cons =>
    obtain rfl := Option.some.inj first
    exact Variables.lookup?_insertAt_self ..

/-- A scanned text commits assignments of its chain. -/
theorem exists_commits {session : Session} {text : String} {tokens : List Token}
    (scanned : Token.scan session.lettering text = .ok tokens) {answer : Except EvalError Complex}
    {vars : Variables}
    (run : (Statement.ofTokens session.lettering tokens).run session.scope = (answer, vars)) :
    ∃ suffix done, Commits session text answer vars suffix done := by
  have chain := leadingTargets_of_scan scanned
  have body := bodyValue_of_scan scanned
  obtain ⟨assigned, assign, success⟩ :=
    run_eq_assign (Statement.ofTokens session.lettering tokens) session.scope
  rw [run] at assign success
  cases assigned with
  | ok v =>
    obtain ⟨z, done, valued, carried, committed⟩ := carried_of_assign assign
    refine ⟨_, done, ?_, ⟨z, v, carried, .inr (body.trans valued), ?_⟩, committed, ?_⟩
    · exact chain ▸ List.suffix_refl _
    · intro w value
      cases success w value
      rfl
    · exact fun _ _ => chain.symm
  | error error =>
    have failed : ∀ w, answer ≠ .ok w := fun w value => nomatch success w value
    rcases carried_of_assign_error assign with unchanged | ⟨suffix, z, w, done, within, rest⟩
    · exact ⟨[], [], List.nil_suffix, ⟨.zero, .zero, .nil, .inl rfl,
        fun w value => absurd value (failed w)⟩, unchanged, fun w value => absurd value (failed w)⟩
    · obtain ⟨valued, carried, committed⟩ := rest
      exact ⟨suffix, done, chain ▸ within, ⟨z, w, carried, .inr (body.trans valued),
        fun w value => absurd value (failed w)⟩, committed, fun w value => absurd value (failed w)⟩

theorem Session.vars_after (session : Session) (answer : Except EvalError Complex)
    (vars : Variables) : (session.after answer vars).vars = vars := by
  cases answer <;> rfl

/-- A text that is scanned is run. -/
theorem evaluate_eq_run {session : Session} {text : String} {tokens : List Token}
    (scanned : Token.scan session.lettering text = .ok tokens) {answer : Except EvalError Complex}
    {vars : Variables}
    (run : (Statement.ofTokens session.lettering tokens).run session.scope = (answer, vars)) :
    session.evaluate text = (answer, session.after answer vars) := by
  unfold Session.evaluate Parser.parse
  simp only [Parser.reset, Parser.new, scanned, List.drop_zero, run]

/-- A text that cannot be scanned changes nothing. -/
theorem evaluate_of_scan_error {session : Session} {text : String} {error : GrammarError}
    (unscanned : Token.scan session.lettering text = .error error) :
    session.evaluate text = (.error (.grammar error), session) := by
  unfold Session.evaluate Parser.parse
  simp only [Parser.reset, Parser.new, unscanned]

theorem evaluate_value {session : Session} {text : String} {tokens : List Token}
    (scanned : Token.scan session.lettering text = .ok tokens) :
    (session.evaluate text).1 =
      ((Statement.ofTokens session.lettering tokens).run session.scope).1 := by
  rcases run : (Statement.ofTokens session.lettering tokens).run session.scope with ⟨answer, vars⟩
  rw [evaluate_eq_run scanned run]

/-- Every evaluation has its effect, and no other. -/
theorem effect_parse (parser : Parser) (session : Session) (text : String) :
    Effect session text ((parser.setExpression text).parse session).1
      ((parser.setExpression text).parse session).2.2 := by
  simp only [Parser.parse, Parser.reset, Parser.setExpression, List.drop_zero]
  cases scanned : Token.scan session.lettering text with
  | error error =>
    have none : leadingTargets session text = [] := by simp only [leadingTargets, scanned]
    refine ⟨rfl, rfl, fun other same => ?_, ⟨[], [], ?_, fun _ _ => rfl⟩, fun v h => nomatch h⟩
    · cases scanned.symm.trans same
      exact ⟨rfl, rfl⟩
    · exact ⟨List.nil_suffix, ⟨.zero, .zero, .nil, .inl rfl, fun w h => nomatch h⟩, rfl,
        fun w h => nomatch h⟩
  | ok tokens =>
    rcases run : (Statement.ofTokens session.lettering tokens).run session.scope with ⟨answer, vars⟩
    obtain ⟨suffix, done, commits⟩ := exists_commits scanned run
    have after := session.vars_after answer vars
    simp only [run]
    refine ⟨?_, ?_, fun error failed => ?_, ⟨suffix, done, ?_, fun key other => ?_⟩, ?_⟩
    · cases answer <;> rfl
    · cases answer <;> rfl
    · cases scanned.symm.trans failed
    · rwa [after]
    · rw [after]
      exact commits.others other
    · intro v value target first
      rw [after]
      exact commits.bound value first

/-! ## Reuse -/

/-- The answers of a parser that is set on one text after the other, and the session after them. -/
def Parser.parseEach (parser : Parser) (session : Session) :
    List String → List (Except EvalError Complex) × Session
  | [] => ([], session)
  | text :: rest =>
    let (answer, parser, session) := (parser.setExpression text).parse session
    let (answers, session) := parser.parseEach session rest
    (answer :: answers, session)

/-- The answers of a new parser for each text, and the session after them. -/
def Session.evaluateEach (session : Session) :
    List String → List (Except EvalError Complex) × Session
  | [] => ([], session)
  | text :: rest =>
    let (answer, session) := session.evaluate text
    let (answers, session) := session.evaluateEach rest
    (answer :: answers, session)

/-- The answer to each text with the session after it, when the texts are evaluated one after the
other. -/
def Session.history (session : Session) : List String → List (Except EvalError Complex × Session)
  | [] => []
  | text :: rest => session.evaluate text :: (session.evaluate text).2.history rest

/-- What a parser has done before makes no difference. -/
theorem parse_eq_evaluate (parser : Parser) (session : Session) (text : String) :
    (((parser.setExpression text).parse session).1, ((parser.setExpression text).parse session).2.2) =
      session.evaluate text := by
  simp only [Session.evaluate, Parser.parse, Parser.reset, Parser.setExpression, Parser.new]

theorem parseEach_eq_evaluateEach (parser : Parser) (session : Session) (texts : List String) :
    parser.parseEach session texts = session.evaluateEach texts := by
  induction texts generalizing parser session with
  | nil => rfl
  | cons text rest ih =>
    rw [Parser.parseEach, Session.evaluateEach, ← parse_eq_evaluate parser session text]
    simp only [ih]

/-- An evaluation, by a parser in any state, has its effect on the session and no other, and is that
of a new parser; so is every sequence of evaluations. -/
theorem parse_effect_and_reuse (parser : Parser) (session : Session) (texts : List String) :
    (∀ text, Effect session text ((parser.setExpression text).parse session).1
      ((parser.setExpression text).parse session).2.2) ∧
    (∀ text, (((parser.setExpression text).parse session).1,
      ((parser.setExpression text).parse session).2.2) = session.evaluate text) ∧
    parser.parseEach session texts = session.evaluateEach texts :=
  ⟨effect_parse parser session, parse_eq_evaluate parser session,
    parseEach_eq_evaluateEach parser session texts⟩

end Calculator
