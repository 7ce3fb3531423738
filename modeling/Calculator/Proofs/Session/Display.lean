import Calculator.Proofs.Session.Evaluation
import Mathlib.Data.List.Forall2

/-!
# Display settings and values

The precision, the style and the case of the exponent say how numbers are shown, and nothing else.
An evaluation reads the letters of a text with the separator and the imaginary unit, and takes its
values from the variables, the last result and the angle unit; sessions that agree in these give
the same answers and agree in them again.
-/

namespace Calculator

/-- The sessions are the same but for how they show numbers: the precision, the style and the case
of the exponent. -/
structure SameButDisplay (a b : Session) : Prop where
  result : a.result = b.result
  vars : a.vars = b.vars
  angleUnit : a.settings.angleUnit = b.settings.angleUnit
  separator : a.settings.format.number.separator = b.settings.format.number.separator
  imaginaryUnit : a.settings.format.imaginaryUnit = b.settings.format.imaginaryUnit

namespace SameButDisplay

variable {a b : Session}

/-- Expressions depend on nothing that the sessions differ in. -/
theorem scope (same : SameButDisplay a b) : a.scope = b.scope := by
  rw [Session.scope, same.vars, same.result, same.angleUnit, Session.scope]

/-- Numbers are spelled alike. -/
theorem lettering (same : SameButDisplay a b) : a.lettering = b.lettering := by
  rw [Session.lettering, ComplexFormat.lettering, same.separator, same.imaginaryUnit]
  rfl

/-- The same answer and the same variables are taken over alike. -/
theorem after (same : SameButDisplay a b) (answer : Except EvalError Complex) (vars : Variables) :
    SameButDisplay (a.after answer vars) (b.after answer vars) := by
  cases answer with
  | error error =>
    exact ⟨same.result, rfl, same.angleUnit, same.separator, same.imaginaryUnit⟩
  | ok z => exact ⟨rfl, rfl, same.angleUnit, same.separator, same.imaginaryUnit⟩

/-- One evaluation gives the same answer and leaves the sessions the same but for the display. -/
theorem evaluate (same : SameButDisplay a b) (text : String) :
    (a.evaluate text).1 = (b.evaluate text).1 ∧
      SameButDisplay (a.evaluate text).2 (b.evaluate text).2 := by
  have scan : Token.scan b.lettering text = Token.scan a.lettering text := by rw [same.lettering]
  cases scanned : Token.scan a.lettering text with
  | error error =>
    rw [evaluate_of_scan_error scanned, evaluate_of_scan_error (scan.trans scanned)]
    exact ⟨rfl, same⟩
  | ok tokens =>
    rcases run : (Statement.ofTokens a.lettering tokens).run a.scope with ⟨answer, vars⟩
    have run' : (Statement.ofTokens b.lettering tokens).run b.scope = (answer, vars) := by
      rw [← same.lettering, ← same.scope, run]
    rw [evaluate_eq_run scanned run, evaluate_eq_run (scan.trans scanned) run']
    exact ⟨rfl, same.after answer vars⟩

end SameButDisplay

/-- However numbers are shown, every sequence of evaluations gives the same answers, and after each
of them the sessions have the same result and the same variables. -/
theorem history_ignores_display {a b : Session} (same : SameButDisplay a b) (texts : List String) :
    List.Forall₂ (fun first second => first.1 = second.1 ∧ SameButDisplay first.2 second.2)
      (a.history texts) (b.history texts) := by
  induction texts generalizing a b with
  | nil => exact .nil
  | cons text rest ih =>
    have step := same.evaluate text
    exact .cons step (ih step.2)

/-- A session that shows three digits in groups of three places. -/
def Session.coarse : Session :=
  withSettings
    { angleUnit := .radians,
      format := ⟨⟨3, .engineering, .lower, .point⟩, .i⟩ }

theorem history_ignores_display_of_thirds :
    SameButDisplay Session.new Session.coarse ∧
      List.Forall₂ (fun first second => first.1 = second.1 ∧ SameButDisplay first.2 second.2)
        (Session.new.history ["x = 1/3", "x*3", "1/0"])
        (Session.coarse.history ["x = 1/3", "x*3", "1/0"]) := by
  have same : SameButDisplay Session.new Session.coarse := ⟨rfl, rfl, rfl, rfl, rfl⟩
  exact ⟨same, history_ignores_display same ["x = 1/3", "x*3", "1/0"]⟩

end Calculator
