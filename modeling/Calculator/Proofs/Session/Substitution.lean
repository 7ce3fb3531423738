import Calculator.Proofs.Grammar.Substitution
import Calculator.Proofs.Session.VariableNames
import Calculator.Proofs.Token.Spelling

/-!
# Calculations in two lines

A line that sets a variable and a line that uses it can be put into one: the variable is replaced by
the expression that was set, in brackets. Nothing is rounded when a value is stored, and the
brackets are not read as those of a call.
-/

namespace Calculator

open Grammar

/-- A variable that is set has the value that was set, and no other variable changes. -/
theorem binds_insert {scope : Scope} {x : String} {inner : Derivation .sum} {v : Complex}
    (free : isReserved x = false) (value : inner.value scope = .ok v) (result : Option Complex) :
    Replacement.Binds ⟨Text.lowercase x, inner⟩ scope
      ⟨scope.vars.insert x v, result, scope.angleUnit⟩ where
  angle := rfl
  bound name same := by
    have found : (scope.vars.insert x v).find? name = some ⟨x, v⟩ := by
      rw [Variables.find?, same]
      exact Variables.lookup?_insertAt_self ..
    rw [value]
    exact @nameValue_of_free ⟨_, result, scope.angleUnit⟩ _ _ _ free same found
  others name other := by
    have same : (scope.vars.insert x v).find? name = scope.vars.find? name :=
      Variables.lookup?_insertAt_of_ne _ _ other
    rw [Variables.get, Variables.get, same]

/-- What runs to a value is the text of a line, if its tokens can be written. -/
theorem exists_text {l : Lettering} {scope : Scope} {tokens : List Token} {v : Complex}
    (writable : ∀ token ∈ tokens, Token.IsWritable l token)
    (h : ((Statement.ofTokens l tokens).run scope).1 = .ok v) :
    ∃ text, Token.scan l text = .ok tokens := by
  obtain ⟨line, rfl⟩ := exists_line h
  exact ⟨_, line.scan_written writable⟩

/-- What a session knows after a variable is set to the value of an expression: the variable is not
reserved, and apart from the last result it is all that has changed. -/
theorem exists_set {session : Session} {x text : String} {inner : List Token} {w : Complex}
    (scanned : Token.scan session.lettering text = .ok (.identifier x :: .assign .set :: inner))
    (plain : ∀ op, .assign op ∉ inner) (h : (session.evaluate text).1 = .ok w) :
    isReserved x = false ∧ ∃ body : Derivation .sum, body.tokens = inner ∧
      body.value session.scope = .ok w ∧
      (session.evaluate text).2 = session.after (.ok w) (session.vars.insert x w) := by
  rcases run : (Statement.ofTokens session.lettering
    (.identifier x :: .assign .set :: inner)).run session.scope with ⟨answer, vars⟩
  rw [evaluate_eq_run scanned run] at h ⊢
  obtain rfl : answer = .ok w := h
  obtain ⟨body, rfl⟩ := exists_assigned plain (congrArg Prod.fst run)
  rw [run_set] at run
  split at run
  · cases run
  · rename_i free
    split at run
    · rename_i v value
      cases run
      exact ⟨Bool.eq_false_iff.2 free, body, rfl, value, rfl⟩
    · cases run

/-- Setting a variable to the value of an expression and evaluating a text that uses the variable
gives the value of the text with the expression, in brackets, for the variable. The text must not
assign to the variable or use the last result, which the first evaluation replaces. -/
theorem evaluate_substitute {session : Session} {x first second : String}
    {inner tokens : List Token} {w v : Complex}
    (setting : Token.scan session.lettering first = .ok (.identifier x :: .assign .set :: inner))
    (plain : ∀ op, .assign op ∉ inner)
    (scanned : Token.scan session.lettering second = .ok tokens)
    (untouched : ∀ target ∈ leadingTargets session second,
      Text.lowercase target.name ≠ Text.lowercase x)
    (noResult : ∀ token ∈ tokens, token.namesResult = false)
    (assigned : (session.evaluate first).1 = .ok w)
    (value : ((session.evaluate first).2.evaluate second).1 = .ok v) :
    (∃ text, Token.scan session.lettering text =
      .ok (Token.substitute (Text.lowercase x) inner tokens)) ∧
    ∀ text, Token.scan session.lettering text =
      .ok (Token.substitute (Text.lowercase x) inner tokens) →
      (session.evaluate text).1 = .ok v := by
  obtain ⟨free, body, rfl, set, after⟩ := exists_set setting plain assigned
  have binds := binds_insert free set (some w)
  have chain : leadingTargets session second = (Statement.takeTargets tokens).1 := by
    simp only [leadingTargets, scanned]
  rw [chain] at untouched
  -- The second line is run with the lettering and the angle unit of the first.
  have used : ((Statement.ofTokens session.lettering tokens).run
      (session.after (.ok w) (session.vars.insert x w)).scope).1 = .ok v := by
    rw [← value, after]
    exact Eq.symm (evaluate_value scanned)
  have run := run_substitute session.lettering binds untouched noResult used
  refine ⟨exists_text (fun token mem => ?_) run, fun text read => ?_⟩
  · rcases Token.mem_substitute _ _ mem with rfl | rfl | mem | mem
    · trivial
    · trivial
    · have within : token ∈ .identifier x :: .assign .set :: body.tokens := by simp [mem]
      exact Token.isWritable_of_mem_scan setting within
    · exact Token.isWritable_of_mem_scan scanned mem
  · rw [evaluate_value read]
    exact run

/-- The variable is written in two cases, in a call and in front of an operator. -/
theorem evaluate_abs_of_sum :
    (Session.new.evaluate "r = 2 + 1").1 = .ok (.ofReal 3) ∧
      ((Session.new.evaluate "r = 2 + 1").2.evaluate "y = abs(-R) * r").1 = .ok (.ofReal 9) ∧
      (Session.new.evaluate "y = abs(-(2 + 1)) * (2 + 1)").1 = .ok (.ofReal 9) := by
  have sum : (Session.new.evaluate "r = 2 + 1").1 = .ok (.ofReal 3) := by decide +kernel
  have product : ((Session.new.evaluate "r = 2 + 1").2.evaluate "y = abs(-R) * r").1 =
      .ok (.ofReal 9) := by
    decide +kernel
  have setting : Token.scan Session.new.lettering "r = 2 + 1" =
      .ok [.identifier "r", .assign .set, .number "2", .plus, .number "1"] := by
    decide +kernel
  have scanned : Token.scan Session.new.lettering "y = abs(-R) * r" =
      .ok [.identifier "y", .assign .set, .identifier "abs", .openBracket, .minus, .identifier "R",
        .closeBracket, .multiply, .identifier "r"] := by
    decide +kernel
  have targets : leadingTargets Session.new "y = abs(-R) * r" = [⟨"y", .set⟩] := by
    simp only [leadingTargets, scanned]
    rfl
  have untouched : ∀ target ∈ leadingTargets Session.new "y = abs(-R) * r",
      Text.lowercase target.name ≠ Text.lowercase "r" := by
    rw [targets]
    decide +kernel
  exact ⟨sum, product, (evaluate_substitute setting (by simp) scanned untouched (by decide +kernel)
    sum product).2 _ (by decide +kernel)⟩

end Calculator
