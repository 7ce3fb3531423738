import Calculator.Expression.Error

/-!
# The failures of an answer

`FailsWith P r` says what the failure of an answer is like, if the answer is one. An answer that is
put together from others fails as one of them does, so there is a rule for each way of putting
answers together.
-/

namespace Calculator

variable {ε ε' α β : Type}

/-- The answer is a value, or a failure of this kind. -/
def FailsWith (P : ε → Prop) (r : Except ε α) : Prop := ∀ e, r = .error e → P e

namespace FailsWith

variable {P : ε → Prop} {Q : ε' → Prop} {r : Except ε α} {f : α → Except ε β}

/-- A value is no failure. -/
theorem ok (a : α) : FailsWith P (.ok a) := nofun

/-- A failure of this kind. -/
theorem error {e : ε} (h : P e) : FailsWith P (.error e : Except ε α) := by
  rintro _ ⟨⟩
  exact h

/-- A kind of failure is of any wider kind. -/
theorem mono {P' : ε → Prop} (h : FailsWith P r) (weaker : ∀ e, P e → P' e) : FailsWith P' r :=
  fun e failed => weaker e (h e failed)

/-- What comes after an answer may rely on its value. -/
theorem bind (first : FailsWith P r) (rest : ∀ a, r = .ok a → FailsWith P (f a)) :
    FailsWith P (r >>= f) := by
  cases r with
  | ok a => exact rest a rfl
  | error e =>
    rintro _ ⟨⟩
    exact first e rfl

/-- A refusal before the rest. -/
theorem guard {c : Prop} [Decidable c] {e : ε} {rest : PUnit → Except ε β} (refusal : c → P e)
    (next : ¬c → FailsWith P (rest ⟨⟩)) :
    FailsWith P (if c then throw e >>= rest else rest ⟨⟩) := by
  split
  · rename_i holds
    exact error (refusal holds)
  · rename_i fails
    exact next fails

/-- A failure that is told in other words. -/
theorem mapError {g : ε → ε'} (h : ∀ e, r = .error e → Q (g e)) : FailsWith Q (r.mapError g) := by
  cases r with
  | ok a => exact ok a
  | error e => exact error (h e rfl)

end FailsWith

end Calculator
