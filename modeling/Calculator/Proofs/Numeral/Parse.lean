import Calculator.Proofs.Numeral.Scan

/-!
# Taking numerals apart

How text without blanks is divided at its marks, and what becomes of the parts: a numeral is
malformed, or zero, or has a mantissa that is rounded together with its exponent.
-/

namespace Calculator

/-- Without blanks there is nothing to trim. -/
theorem trim_eq_self {cs : List Char} (solid : ∀ c ∈ cs, Text.isBlank c = false) :
    Text.trim cs = cs := by
  have front : Text.trimStart cs = cs :=
    trimStart_eq_self fun c mem => solid c (List.mem_of_mem_head? mem)
  have back : Text.trimStart cs.reverse = cs.reverse :=
    trimStart_eq_self fun c mem => solid c (List.mem_reverse.1 (List.mem_of_mem_head? mem))
  rw [Text.trim, front, Text.trimEnd]
  exact (congrArg List.reverse back).trans cs.reverse_reverse

/-! ## Splitting at a mark -/

/-- Without a mark there is nothing to split off. -/
theorem splitAtFirst_none {mark : Char → Bool} {cs : List Char} (off : ∀ c ∈ cs, mark c = false) :
    splitAtFirst mark cs = (cs, none) := by
  have plain : ∀ c ∈ cs, (!mark c) = true := fun c mem => by rw [off c mem]; rfl
  have left := (@span_append _ cs [] plain (by simp)).2
  rw [List.append_nil] at left
  rw [splitAtFirst, left]

/-- The first mark splits. -/
theorem splitAtFirst_some {mark : Char → Bool} {front rest : List Char} {m : Char}
    (off : ∀ c ∈ front, mark c = false) (on : mark m = true) :
    splitAtFirst mark (front ++ m :: rest) = (front, some rest) := by
  have plain : ∀ c ∈ front, (!mark c) = true := fun c mem => by rw [off c mem]; rfl
  obtain ⟨taken, left⟩ := @span_append _ front (m :: rest) plain (by rintro c ⟨⟩; rw [on]; rfl)
  rw [splitAtFirst, left, taken]

/-- Text is split at a mark, or has none. -/
theorem splitAtFirst_cases (mark : Char → Bool) (cs : List Char) :
    splitAtFirst mark cs = (cs, none) ∨
      ∃ front m rest, splitAtFirst mark cs = (front, some rest) ∧ mark m ∧
        cs = front ++ m :: rest := by
  have whole : cs.takeWhile (!mark ·) ++ cs.dropWhile (!mark ·) = cs :=
    List.takeWhile_append_dropWhile
  have head := List.head?_dropWhile_not (!mark ·) cs
  unfold splitAtFirst
  split
  · exact .inl rfl
  · rename_i m rest found
    rw [found] at whole head
    exact .inr ⟨_, m, rest, rfl, by simpa using head, whole.symm⟩

theorem not_isExponentMark_of_isDigit {c : Char} (digit : c.isDigit) :
    isExponentMark c = false := by
  have each := of_isDigit (fun d => !isExponentMark d) (by rfl) digit
  simpa using each

theorem ne_point_of_isDigit {c : Char} (digit : c.isDigit) : (c == '.') = false := by
  have each := of_isDigit (fun d => !(d == '.')) (by rfl) digit
  simpa using each

/-! ## What is read -/

/-- The exponent that a numeral is written with; none stands for zero. -/
def Numeral.writtenExponent (n : Numeral) : Except Condition Int :=
  match n.exponent with
  | none => pure 0
  | some cs => exponentValue cs

namespace Precision

/-- What is not made of digits is refused. -/
theorem ofNumeral_malformed {p : Precision} {n : Numeral} (malformed : n.isWellFormed = false) :
    p.ofNumeral n = .error .conversionSyntax := by
  unfold ofNumeral
  rw [malformed]
  rfl

/-- A mantissa of zeros is zero, whatever exponent it has. -/
theorem ofNumeral_zero {p : Precision} {n : Numeral} (wellFormed : n.isWellFormed = true)
    (vanishes : digitsValue n.digits = 0) : p.ofNumeral n = .ok .zero := by
  unfold ofNumeral
  rw [wellFormed, vanishes]
  rfl

/-- A mantissa that is not zero is read together with its exponent, unless the two are far beyond
the bounds. -/
theorem ofNumeral_eq {p : Precision} {n : Numeral} (wellFormed : n.isWellFormed = true)
    (nonzero : digitsValue n.digits ≠ 0) :
    p.ofNumeral n = n.writtenExponent.bind fun written =>
      let e := written - n.fraction.length
      let adjusted := e + (n.digits.dropWhile (· == '0')).length - 1
      if adjusted > 2 * exponentBound ∨ adjusted < -2 * exponentBound then
        .error (.ofSign (decide (adjusted < 0)))
      else p.roundParts (if n.negative then -(digitsValue n.digits : Int) else digitsValue n.digits)
        e := by
  have nonzero_cast : ¬(digitsValue n.digits : Int) = 0 := by exact_mod_cast nonzero
  unfold ofNumeral Numeral.writtenExponent
  simp only [wellFormed, Bool.not_true, Bool.false_eq_true, if_false, nonzero_cast]
  cases n.exponent with
  | none =>
    simp only [pure, Except.pure, bind, Except.bind]
    split <;> rfl
  | some cs =>
    simp only [bind, Except.bind]
    cases exponentValue cs with
    | error => rfl
    | ok written =>
      dsimp only
      split <;> rfl

end Precision

end Calculator
