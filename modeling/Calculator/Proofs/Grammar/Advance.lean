import Calculator.Proofs.Grammar.Agreement
import Calculator.Proofs.Session.Faults

/-!
# The descent ends and advances

A function of the descent comes to its answer within a depth that is known from its position, and it
either fails or ends at a later position, which is the end of the tokens at the latest. The same holds
for an assignment, and so a line comes to an end, whether it is well formed or not: to that of its
statement.
-/

namespace Calculator.Descent

open Calculator.Expr Calculator.Grammar

variable {l : Lettering} {ts tokens rest : List Token} {scope : Scope} {p q depth : Nat} {z : Complex}

/-! ## Assignments -/

/-- What is behind the targets of a line: a sum, unless it is an assignment to the imaginary unit. -/
def bodyAnswer (l : Lettering) (ts : List Token) (scope : Scope) :
    List Token → Except EvalError (Complex × Nat)
  | .imaginaryOne :: .assign _ :: _ =>
    .error (.grammar (.invalidVariableName (String.singleton l.imaginaryUnit.glyph)))
  | tokens => answerOf ts scope (Expr.read tokens)

theorem bodyAnswer_eq (other : ∀ op rest, tokens ≠ .imaginaryOne :: .assign op :: rest) :
    bodyAnswer l ts scope tokens = answerOf ts scope (Expr.read tokens) := by
  fun_cases bodyAnswer l ts scope tokens with
  | case1 op rest => exact absurd rfl (other op rest)
  | case2 => rfl

/-- The answer of an assignment: the targets are assigned to, and its end is that of the body. -/
def assignAnswer (l : Lettering) (ts : List Token) (scope : Scope) (tokens : List Token) :
    Except EvalError (Complex × Nat) × Variables :=
  let (targets, rest) := Statement.takeTargets tokens
  let body := bodyAnswer l ts scope rest
  let (answer, vars) := Calculator.assign scope.vars (fun _ => body.map Prod.fst) targets
  (answer >>= fun z => body.map fun (_, q) => (z, q), vars)

theorem takeTargets_eq_self (other : ∀ name op rest, tokens ≠ .identifier name :: .assign op :: rest) :
    Statement.takeTargets tokens = ([], tokens) := by
  fun_cases Statement.takeTargets tokens with
  | case1 name op rest => exact absurd rfl (other name op rest)
  | case2 => rfl

/-- Without targets the answer is that of the body. -/
theorem assignAnswer_eq (other : ∀ name op rest, tokens ≠ .identifier name :: .assign op :: rest) :
    assignAnswer l ts scope tokens = (bodyAnswer l ts scope tokens, scope.vars) := by
  rw [assignAnswer, takeTargets_eq_self other]
  dsimp only [Calculator.assign]
  cases bodyAnswer l ts scope tokens <;> rfl

theorem exists_body_of_assign {targets : List Target} {body : Except EvalError (Complex × Nat)}
    {vars after : Variables} (h : Calculator.assign vars (fun _ => body.map Prod.fst) targets =
      (.ok z, after)) : ∃ w q, body = .ok (w, q) := by
  obtain ⟨w, -, valued, -⟩ := carried_of_assign h
  obtain ⟨⟨w, q⟩, body, -⟩ := map_eq_ok.1 valued
  exact ⟨w, q, body⟩

/-- A target in front: the rest comes to an answer, and the target is assigned to. -/
theorem assignAnswer_cons (name : String) (op : AssignOp) :
    assignAnswer l ts scope (.identifier name :: .assign op :: rest) =
      if isReserved name then (.error (.grammar (.invalidVariableName name)), scope.vars)
      else match Target.current ⟨name, op⟩ scope.vars with
      | .error error => (.error (.grammar error), scope.vars)
      | .ok current =>
        match assignAnswer l ts scope rest with
        | (.error error, vars) => (.error error, vars)
        | (.ok (z, q), vars) =>
          match Target.combine ⟨name, op⟩ current z with
          | .error error => (.error (.math error), vars)
          | .ok z => (.ok (z, q), vars.insert name z) := by
  simp only [assignAnswer, Statement.takeTargets, Calculator.assign]
  split
  · rfl
  · cases Target.current ⟨name, op⟩ scope.vars with
    | error error => rfl
    | ok current =>
      dsimp only
      generalize bodyAnswer l ts scope (Statement.takeTargets rest).2 = body
      rcases assigned : Calculator.assign scope.vars (fun _ => body.map Prod.fst)
        (Statement.takeTargets rest).1 with ⟨error | z, vars⟩
      · rfl
      · obtain ⟨w, q, rfl⟩ := exists_body_of_assign assigned
        dsimp only [Except.map, bind, Except.bind]
        cases Target.combine ⟨name, op⟩ current z <;> rfl

theorem assign_eq (h : At ts p tokens) (deep : 11 * (ts.length - p) + 10 < depth) :
    assign l ts scope depth p = some (assignAnswer l ts scope tokens) := by
  induction depth generalizing p tokens with
  | zero => omega
  | succ depth ih =>
    rw [assign, if_neg (Nat.not_lt.2 h.le), h.head?, h.getElem? 1]
    split
    · rename_i name op first second
      obtain ⟨rest, rfl⟩ := exists_of_first_two first second
      have inside := h.next.next.le
      rw [ih h.next.next (by omega), assignAnswer_cons]
      split
      · rfl
      · cases Target.current ⟨name, op⟩ scope.vars with
        | error error => rfl
        | ok current =>
          rcases assignAnswer l ts scope rest with ⟨error | ⟨z, q⟩, vars⟩
          · rfl
          · dsimp only
            cases Target.combine ⟨name, op⟩ current z <;> rfl
    · rename_i first second
      obtain ⟨rest, rfl⟩ := exists_of_first_two first second
      rw [assignAnswer_eq (by rintro name op rest ⟨⟩)]
      rfl
    · rename_i no_target no_marker
      have targetless name op rest : tokens ≠ .identifier name :: .assign op :: rest := by
        rintro rfl
        exact no_target name op rfl rfl
      have markerless op rest : tokens ≠ .imaginaryOne :: .assign op :: rest := by
        rintro rfl
        exact no_marker op rfl rfl
      have sum : Expected ts scope (.read .sum) p (answerOf ts scope (Expr.read tokens)) :=
        .read h le_rfl
      have sum_lighter : weight ts (.read .sum) p < depth := by
        simp only [weight, Task.rank, Level.rank]
        omega
      rw [descend_eq sum sum_lighter, assignAnswer_eq targetless, bodyAnswer_eq markerless]
      rfl

theorem assignAnswer_advances (h : At ts p tokens)
    (answer : (assignAnswer l ts scope tokens).1 = .ok (z, q)) : p < q ∧ q ≤ ts.length := by
  obtain ⟨front, taken⟩ := takeTargets_suffix tokens
  rw [← taken] at h
  rw [assignAnswer] at answer
  obtain ⟨w, -, body⟩ := bind_eq_ok.1 answer
  obtain ⟨⟨v, r⟩, body, same⟩ := map_eq_ok.1 body
  cases same
  unfold bodyAnswer at body
  split at body
  · cases body
  · obtain ⟨e, rest, -, behind, later⟩ := exists_read_of_answerOf .sum h.append body
    exact ⟨by omega, behind.le⟩

/-! ## Lines -/

theorem ofTokens_targets : (Statement.ofTokens l ts).targets = (Statement.takeTargets ts).1 := by
  rw [Statement.ofTokens]
  dsimp only
  split
  · rfl
  · split <;> rfl

theorem bodyAnswer_map_fst :
    (bodyAnswer l ts scope (Statement.takeTargets ts).2).map Prod.fst =
      (Statement.ofTokens l ts).value scope := by
  rw [Statement.ofTokens]
  dsimp only
  generalize (Statement.takeTargets ts).2 = body
  unfold bodyAnswer
  split
  · rfl
  · cases Expr.read body with
    | error broken =>
      simp only [answerOf, Statement.value]
      cases broken.eval scope <;> rfl
    | ok read =>
      obtain ⟨e, rest⟩ := read
      simp only [answerOf, Statement.value]
      cases e.eval scope <;> rfl

/-- What is left behind an expression is complained of by the token at its end. -/
theorem ofTokens_surplus (answer : bodyAnswer l ts scope (Statement.takeTargets ts).2 = .ok (z, q)) :
    (Statement.ofTokens l ts).surplus = Statement.surplusError (ts.drop q) := by
  obtain ⟨front, taken⟩ := takeTargets_suffix ts
  have position : At ts front.length (Statement.takeTargets ts).2 := ⟨front, taken, rfl⟩
  rw [Statement.ofTokens]
  dsimp only
  generalize (Statement.takeTargets ts).2 = body at answer position
  split
  · cases answer
  · rename_i other
    rw [bodyAnswer_eq other] at answer
    obtain ⟨e, rest, read, behind, -⟩ := exists_read_of_answerOf .sum position answer
    change Expr.read body = .ok (e, rest) at read
    rw [read, behind.drop_eq]

/-- What stands at the end of an assignment is complained of by its first token. -/
theorem line_of_assign {vars : Variables}
    (assigned : assign l ts scope depth 0 = some (.ok (z, q), vars)) :
    line l ts scope depth = some (match Statement.surplusError (ts.drop q) with
      | some error => (.error (.grammar error), vars)
      | none => (.ok z, vars)) := by
  rw [line, assigned]
  dsimp only
  rw [← List.head?_drop]
  rcases ts.drop q with _ | ⟨token, behind⟩
  · rfl
  · cases token <;> rfl

/-- A line comes to what its statement comes to, which is what evaluating a text runs. -/
theorem line_eq (deep : 11 * ts.length + 10 < depth) :
    line l ts scope depth = some ((Statement.ofTokens l ts).run scope) := by
  have start : At ts 0 ts := ⟨[], rfl, rfl⟩
  rw [Statement.run, ofTokens_targets, ← bodyAnswer_map_fst]
  rcases assigned : Calculator.assign scope.vars
    (fun _ => (bodyAnswer l ts scope (Statement.takeTargets ts).2).map Prod.fst)
    (Statement.takeTargets ts).1 with ⟨error | v, vars⟩
  · have failed : assign l ts scope depth 0 = some (.error error, vars) := by
      rw [assign_eq start deep, assignAnswer]
      dsimp only
      rw [assigned]
      rfl
    rw [line, failed]
  · obtain ⟨w, q, body⟩ := exists_body_of_assign assigned
    have valued : assign l ts scope depth 0 = some (.ok (v, q), vars) := by
      rw [assign_eq start deep, assignAnswer]
      dsimp only
      rw [assigned, body]
      rfl
    rw [line_of_assign valued]
    cases complaint : Statement.surplusError (ts.drop q) <;>
      simp only [ofTokens_surplus body, complaint]

/-! ## Termination -/

/-- A function that is called at a position within the tokens, or at their end, comes to its answer
within a depth that is known, and nothing is called behind the end on the way, where there is no
answer. It fails, or it ends at a later position that is not behind the end. So does an assignment,
and a line comes to what its statement comes to. -/
theorem descent_ends_and_advances (l : Lettering) (ts : List Token) (scope : Scope) :
    (∀ p ≤ ts.length,
      (∀ level, ∃ answer,
        (∀ depth, weight ts (.read level) p < depth →
          descend ts scope depth (.read level) p = settled answer) ∧
        ∀ z q, answer = .ok (z, q) → p < q ∧ q ≤ ts.length) ∧
      ∃ answer vars,
        (∀ depth, 11 * (ts.length - p) + 10 < depth →
          assign l ts scope depth p = some (answer, vars)) ∧
        ∀ z q, answer = .ok (z, q) → p < q ∧ q ≤ ts.length) ∧
    ∀ depth, 11 * ts.length + 10 < depth →
      line l ts scope depth = some ((Statement.ofTokens l ts).run scope) := by
  refine ⟨fun p inside => ⟨fun level => ?_, ?_⟩, fun depth deep => line_eq deep⟩
  · refine ⟨_, fun depth deep => descend_eq (.read (.drop inside) le_rfl) deep, ?_⟩
    intro z q answer
    obtain ⟨e, rest, -, behind, later⟩ := exists_read_of_answerOf level (.drop inside) answer
    exact ⟨later, behind.le⟩
  · exact ⟨_, _, fun depth deep => assign_eq (.drop inside) deep,
      fun z q answer => assignAnswer_advances (.drop inside) answer⟩

/-- A bracket that is not closed: the number in it is read to the end of the tokens, and the line comes
to the complaint. -/
theorem descent_ends_and_advances_unclosed :
    2 ≤ [Token.minus, .openBracket, .imaginaryOne].length ∧
    (∀ depth, 11 < depth →
      descend [.minus, .openBracket, .imaginaryOne] Session.new.scope depth (.read .number) 2 =
        settled (.ok (.i, 3))) ∧
    ∀ depth, 43 < depth →
      line Session.new.lettering [.minus, .openBracket, .imaginaryOne] Session.new.scope depth =
        some (.error (.grammar .noClosingBracket), .empty) := by
  have inside : 2 ≤ [Token.minus, .openBracket, .imaginaryOne].length := by decide
  obtain ⟨within, ends⟩ := descent_ends_and_advances Session.new.lettering
    [.minus, .openBracket, .imaginaryOne] Session.new.scope
  obtain ⟨answer, settles, -⟩ := (within 2 inside).1 .number
  have here : settled answer = settled (.ok (.i, 3)) := (settles 12 (by decide)).symm
  refine ⟨inside, fun depth deep => (settles depth deep).trans here, fun depth deep => ?_⟩
  exact (ends depth deep).trans rfl

end Calculator.Descent
