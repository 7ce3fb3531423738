import Calculator.Proofs.Grammar.Reading
import Calculator.Proofs.Session.Assignment

/-!
# The meaning of a line

A line is accepted exactly when its tokens have a derivation, the derivation is then
unique, and the value of the line is that of the derivation.
-/

namespace Calculator.Grammar

/-! ## Expressions -/

/-- The tokens of an expression are read as it. -/
theorem Derivation.read_tokens (t : Derivation .sum) : Expr.read t.tokens = .ok (t.expr, []) := by
  have read := (t.read t.tokens.length [] (Nat.le_refl _) (follows_nil _)).trans
    (resume_of_follows (follows_nil _))
  rwa [List.append_nil] at read

/-- A list of tokens has one derivation at most. -/
theorem Derivation.tokens_injective {t u : Derivation .sum} (h : t.tokens = u.tokens) : t = u := by
  have read := t.read_tokens
  rw [h, u.read_tokens, Except.ok.injEq, Prod.mk.injEq] at read
  exact t.expr_injective u read.1.symm

mutual

/-- There is no assignment within an expression. -/
theorem Derivation.assign_notMem {phrase : Phrase} (op : AssignOp) :
    ∀ t : Derivation phrase, .assign op ∉ t.tokens
  | .ofProduct operand | .ofPower operand | .ofConverted operand | .ofSigned operand
  | .ofBracketed operand | .ofCall operand | .ofAtom operand => operand.assign_notMem op
  | .add left right | .sub left right | .mul left right | .div left right | .pow left right => by
    simp [Derivation.tokens, left.assign_notMem op, right.assign_notMem op]
  | .convert operand _ _ | .plus operand | .minus operand | .group operand => by
    simp [Derivation.tokens, operand.assign_notMem op]
  | .call _ arguments => by simp [Derivation.tokens, arguments.assign_notMem op]
  | .name _ => by simp [Derivation.tokens]
  | .number (.numeral _) | .number .marker | .number (.imaginary _ true)
  | .number (.imaginary _ false) => by simp [Derivation.tokens, Literal.tokens]

theorem ArgumentList.assign_notMem (op : AssignOp) :
    ∀ ts : ArgumentList, .assign op ∉ ts.tokens
  | .last argument => argument.assign_notMem op
  | .cons argument rest => by
    simp [ArgumentList.tokens, argument.assign_notMem op, rest.assign_notMem op]

end

/-! ## Lines -/

namespace Line

/-- The variables that a line assigns to. -/
def targets : Line → List Target
  | .assign name op rest => ⟨name, op⟩ :: rest.targets
  | .ofSum _ => []

/-- The expression whose value a line assigns. -/
def body : Line → Derivation .sum
  | .assign _ _ rest => rest.body
  | .ofSum body => body

theorem takeTargets_tokens (line : Line) :
    Statement.takeTargets line.tokens = (line.targets, line.body.tokens) := by
  induction line with
  | assign name op rest ih => simp only [tokens, Statement.takeTargets, ih, targets, body]
  | ofSum t =>
    have none := fun op => t.assign_notMem op
    simp only [tokens, targets, body]
    generalize t.tokens = ts at none
    fun_cases Statement.takeTargets ts with
    | case1 name op => exact absurd (none op) (by simp)
    | case2 => rfl

/-- A line is read as its derivation has it. -/
theorem ofTokens_tokens (l : Lettering) (line : Line) :
    Statement.ofTokens l line.tokens =
      { targets := line.targets, body := .ok line.body.expr, surplus := none } := by
  have none := fun op => line.body.assign_notMem op
  rw [Statement.ofTokens, takeTargets_tokens]
  dsimp only
  split
  · rename_i op _ start
    exact absurd (none op) (by simp [start])
  · rw [line.body.read_tokens]
    rfl

/-- A list of tokens has one derivation at most. -/
theorem tokens_injective : ∀ {line other : Line}, line.tokens = other.tokens → line = other
  | .assign name op rest, .assign name' op' rest', h => by
    simp only [tokens, List.cons.injEq, Token.identifier.injEq, Token.assign.injEq] at h
    rw [h.1, h.2.1, tokens_injective h.2.2]
  | .ofSum t, .ofSum u, h => by rw [Derivation.tokens_injective h]
  | .assign _ op _, .ofSum u, h =>
    absurd (u.assign_notMem op) (by simp [← show _ = u.tokens from h, tokens])
  | .ofSum t, .assign _ op _, h =>
    absurd (t.assign_notMem op) (by simp [show t.tokens = _ from h, tokens])

/-- Every reading of tokens as targets and an expression that leaves none is a derivation. -/
theorem exists_of_targets (t : Derivation .sum) (ts : List Token)
    (h : (Statement.takeTargets ts).2 = t.tokens) : ∃ line : Line, line.tokens = ts := by
  fun_induction Statement.takeTargets ts with
  | case1 name op rest targets after taken ih =>
    obtain ⟨line, same⟩ := ih (by simpa [taken] using h)
    exact ⟨.assign name op line, by rw [tokens, same]⟩
  | case2 ts => exact ⟨.ofSum t, h.symm⟩

theorem oldValue_eq (scope : Scope) (name : String) (op : AssignOp) :
    oldValue scope name op = (Target.current ⟨name, op⟩ scope.vars).mapError .grammar := by
  cases op with
  | set => rfl
  | add | sub | mul | div | pow =>
    simp only [oldValue, Target.current]
    cases scope.vars.get name <;> rfl

theorem assigned_eq (name : String) (op : AssignOp) (old : Option Complex) (z : Complex) :
    assigned op old z = Target.combine ⟨name, op⟩ old z := by
  cases op <;> cases old <;> rfl

/-- The answer of the assignments of a line is its value. -/
theorem assign_targets (scope : Scope) (line : Line) :
    (Calculator.assign scope.vars (fun _ => line.body.expr.eval scope) line.targets).1 =
      line.value scope := by
  induction line with
  | ofSum t => exact t.eval_expr scope
  | assign name op rest ih =>
    simp only [targets, body, Calculator.assign, value, oldValue_eq, assigned_eq name]
    by_cases reserved : isReserved name
    · simp only [reserved, if_true]
      rfl
    · simp only [reserved, if_false, Bool.false_eq_true]
      rw [← ih]
      cases Target.current ⟨name, op⟩ scope.vars with
      | error => rfl
      | ok old =>
        rcases Calculator.assign scope.vars (fun _ => rest.body.expr.eval scope) rest.targets with
          ⟨error | z, vars⟩
        · rfl
        · change _ = (Target.combine ⟨name, op⟩ old z).mapError EvalError.math
          dsimp only
          cases Target.combine ⟨name, op⟩ old z <;> rfl

end Line

/-! ## Statements -/

/-- A fault in the tokens leaves no value. -/
theorem broken_eval_ne (scope : Scope) (broken : Broken) (v : Complex) :
    broken.eval scope ≠ .ok v := by
  intro h
  obtain ⟨_, -, h⟩ := bind_eq_ok.1 h
  cases h

theorem surplusError_eq_none {ts : List Token} (h : Statement.surplusError ts = none) : ts = [] := by
  fun_cases Statement.surplusError ts <;> simp_all [Statement.surplusError]

/-- A statement with a value has an expression and nothing after it. -/
theorem body_of_run {s : Statement} {scope : Scope} {v : Complex} (h : (s.run scope).1 = .ok v) :
    (∃ e, s.body = .ok e) ∧ s.surplus = none := by
  rw [Statement.run] at h
  split at h
  · cases h
  · rename_i w vars assigned
    split at h
    · cases h
    · rename_i none
      obtain ⟨z, -, valued, -⟩ := carried_of_assign assigned
      refine ⟨?_, none⟩
      cases body : s.body with
      | ok e => exact ⟨e, rfl⟩
      | error broken =>
        simp only [Statement.value, body] at valued
        exact absurd valued (broken_eval_ne scope broken z)

/-- What runs to a value has a derivation. -/
theorem exists_line {l : Lettering} {ts : List Token} {scope : Scope} {v : Complex}
    (h : ((Statement.ofTokens l ts).run scope).1 = .ok v) : ∃ line : Line, line.tokens = ts := by
  obtain ⟨⟨e, body⟩, surplus⟩ := body_of_run h
  rw [Statement.ofTokens] at body surplus
  dsimp only at body surplus
  split at body
  · cases body
  · rename_i otherwise
    split at body
    · cases body
    · rename_i e' rest read
      simp only [read] at surplus
      obtain rfl := surplusError_eq_none surplus
      obtain ⟨t, -, taken⟩ := readSum_sound (readWithin_sound _) read
      rw [List.append_nil] at taken
      exact Line.exists_of_targets t ts taken.symm

/-- The answer to the tokens of a line is its value. -/
theorem run_tokens (l : Lettering) (scope : Scope) (line : Line) :
    ((Statement.ofTokens l line.tokens).run scope).1 = line.value scope := by
  rw [line.ofTokens_tokens, ← line.assign_targets scope]
  simp only [Statement.run, Statement.value]
  rcases assign scope.vars (fun _ => line.body.expr.eval scope) line.targets with
    ⟨error | z, vars⟩ <;> rfl

/-- The tokens of a line have a value exactly when they have a derivation with that value, and they
have one derivation at most. -/
theorem run_ok_iff_derivation (l : Lettering) (ts : List Token) (scope : Scope) (v : Complex) :
    (((Statement.ofTokens l ts).run scope).1 = .ok v ↔
      ∃ line : Line, line.tokens = ts ∧ line.value scope = .ok v) ∧
    ∀ line other : Line, line.tokens = ts → other.tokens = ts → line = other := by
  refine ⟨⟨fun h => ?_, ?_⟩, fun line other same same' => ?_⟩
  · obtain ⟨line, rfl⟩ := exists_line h
    exact ⟨line, rfl, (run_tokens l scope line).symm.trans h⟩
  · rintro ⟨line, rfl, valued⟩
    exact (run_tokens l scope line).trans valued
  · exact Line.tokens_injective (same.trans same'.symm)

end Calculator.Grammar
