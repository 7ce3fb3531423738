import Calculator.Complex.Trigonometry
import Calculator.Proofs.Real.Closure

/-!
# The operations on complex numbers answer working values

A complex number is a working value when both of its parts are. The parts of an answer come from
operations on real numbers, so the answer is a working value whatever the operands are; only a
changed sign and the inverse functions that a real operand is handed to as it is ask for one.
-/

namespace Calculator.Complex

open Precision (working)

/-- Both parts are working values. -/
def IsWorking (z : Complex) : Prop := z.re.IsWorking ∧ z.im.IsWorking

instance (z : Complex) : Decidable z.IsWorking := inferInstanceAs (Decidable (_ ∧ _))

variable {z w : Complex}

/-- A real number is working as a complex one. -/
theorem isWorking_ofReal {x : Decimal} (h : x.IsWorking) : (ofReal x).IsWorking :=
  ⟨h, Decimal.isWorking_zero⟩

theorem isWorking_zero : zero.IsWorking := by decide

theorem isWorking_one : one.IsWorking := by decide

theorem isWorking_i : i.IsWorking := by decide

theorem IsWorking.neg (h : z.IsWorking) : (-z).IsWorking := ⟨h.1.neg, h.2.neg⟩

/-- The answer of a function of real numbers, as a complex number. -/
theorem yields_ofReal {r : Except MathError Decimal} (h : Yields Decimal.IsWorking r) :
    Yields IsWorking (do return ofReal (← r)) :=
  h.bind fun _ hx => .pure (isWorking_ofReal hx)

/-- An answer put together from its parts. -/
theorem yields_parts {ε : Type} {re im : Except ε Decimal} (hre : Yields Decimal.IsWorking re)
    (him : Yields Decimal.IsWorking im) : Yields IsWorking (do return ⟨← re, ← im⟩) :=
  hre.bind fun _ hx => him.bind fun _ hy => .pure ⟨hx, hy⟩

/-! ## Arithmetic -/

/-- Both parts of a sum come from rounded operations, whatever the operands are; so it is with the
other operations. -/
theorem yields_add (z w : Complex) : Yields IsWorking (z.add w) :=
  yields_parts (Decimal.yields_add _ _) (Decimal.yields_add _ _)

theorem yields_sub (z w : Complex) : Yields IsWorking (z.sub w) :=
  yields_parts (Decimal.yields_sub _ _) (Decimal.yields_sub _ _)

theorem yields_mul (z w : Complex) : Yields IsWorking (z.mul w) := by
  unfold mul
  refine .after fun first => .after fun second => ?_
  refine (Decimal.yields_sub first second).bind fun re hre => ?_
  refine .after fun third => .after fun fourth => ?_
  exact (Decimal.yields_add third fourth).bind fun im him => .pure ⟨hre, him⟩

/-- The square of the magnitude is a single number. -/
theorem yields_sqr (z : Complex) : Yields Decimal.IsWorking z.sqr := by
  unfold sqr
  exact .after fun first => .after fun second => Decimal.yields_add first second

theorem yields_div (z w : Complex) : Yields IsWorking (z.div w) := by
  unfold div
  refine .after fun denominator => .guard ?_
  refine .after fun first => .after fun second => .after fun re => ?_
  refine .after fun third => .after fun fourth => .after fun im => ?_
  exact yields_parts (Decimal.yields_div re denominator) (Decimal.yields_div im denominator)

theorem yields_scale (z : Complex) (factor : Decimal) : Yields IsWorking (z.scale factor) :=
  yields_parts (Decimal.yields_mul _ _) (Decimal.yields_mul _ _)

/-- Halving is a division. -/
theorem yields_halve (z : Complex) : Yields IsWorking z.halve := yields_div z _

/-! ## Modulus, logarithms and powers -/

theorem yields_abs (z : Complex) : Yields Decimal.IsWorking z.abs := by
  unfold abs
  exact .after fun square => Decimal.yields_sqrt square

/-- The angle is zero, the ratio of a circle, or an inverse cosine with a sign. -/
theorem yields_arg (z : Complex) : Yields Decimal.IsWorking z.arg := by
  unfold arg
  split
  · refine .pure ?_
    split
    · exact Decimal.isWorking_pi
    · exact Decimal.isWorking_zero
  · refine .after fun modulus => .after fun cosine => ?_
    refine (Decimal.yields_arccos cosine).bind fun angle h => .pure ?_
    split
    · exact h.neg
    · exact h

/-- Only real numbers have a factorial. -/
theorem yields_factorial (z : Complex) : Yields IsWorking z.factorial := by
  unfold factorial
  exact .guard (yields_ofReal (Decimal.yields_factorial z.re))

theorem yields_ln (z : Complex) : Yields IsWorking z.ln := by
  unfold ln
  split
  · exact yields_ofReal (Decimal.yields_ln z.re)
  · exact .after fun modulus => yields_parts (Decimal.yields_ln modulus) (yields_arg z)

theorem yields_log2 (z : Complex) : Yields IsWorking z.log2 := by
  unfold log2
  split
  · exact yields_ofReal (Decimal.yields_log2 z.re)
  · exact .after fun ln => .after fun two => .lift (yields_div ln _)

theorem yields_log10 (z : Complex) : Yields IsWorking z.log10 := by
  unfold log10
  split
  · exact yields_ofReal (Decimal.yields_log10 z.re)
  · exact .after fun ln => .after fun ten => .lift (yields_div ln _)

theorem yields_exp (z : Complex) : Yields IsWorking z.exp := by
  unfold exp
  refine (Decimal.yields_exp z.re).bind fun magnitude h => ?_
  split
  · exact .pure (isWorking_ofReal h)
  · exact .after fun cos => .after fun sin => .lift (yields_scale _ magnitude)

/-- A power is one of real numbers, zero, or an exponential. -/
theorem yields_pow (z w : Complex) : Yields IsWorking (z.pow w) := by
  unfold pow
  split
  · exact yields_ofReal (Decimal.yields_pow z.re w.re)
  · split
    · exact .pure isWorking_zero
    · exact .after fun ln => .after fun product => yields_exp product

theorem yields_sqrt (z : Complex) : Yields IsWorking z.sqrt := yields_pow z _

/-! ## Trigonometric functions -/

theorem yields_sin (z : Complex) : Yields IsWorking z.sin := by
  unfold sin
  split
  · exact yields_ofReal (Decimal.yields_sin z.re)
  · exact .after fun pair => .after fun difference => .lift (yields_div difference _)

theorem yields_cos (z : Complex) : Yields IsWorking z.cos := by
  unfold cos
  split
  · exact yields_ofReal (Decimal.yields_cos z.re)
  · exact .after fun pair => .after fun sum => .lift (yields_halve sum)

theorem yields_tan (z : Complex) : Yields IsWorking z.tan := by
  unfold tan
  split
  · exact yields_ofReal (Decimal.yields_tan z.re)
  · exact .after fun cos => .guard (.after fun sin => .lift (yields_div sin cos))

theorem yields_cot (z : Complex) : Yields IsWorking z.cot := by
  unfold cot
  split
  · exact yields_ofReal (Decimal.yields_cot z.re)
  · exact .after fun sin => .guard (.after fun cos => .lift (yields_div cos sin))

theorem yields_arcsin (z : Complex) : Yields IsWorking z.arcsin := by
  unfold arcsin
  split
  · exact yields_ofReal (Decimal.yields_arcsin z.re)
  · exact .after fun rotated => .after fun cosine => .after fun inner => .after fun ln =>
      .lift (yields_mul minusI ln)

theorem yields_arccos (z : Complex) : Yields IsWorking z.arccos := by
  unfold arccos
  split
  · exact yields_ofReal (Decimal.yields_arccos z.re)
  · exact .after fun cosine => .after fun rotated => .after fun inner => .after fun ln =>
      .lift (yields_mul minusI ln)

/-- A small real number goes to the series as it is, so it has to be a working value. -/
theorem IsWorking.yields_arctan (h : z.IsWorking) : Yields IsWorking z.arctan := by
  unfold arctan
  split
  · exact yields_ofReal h.1.yields_arctan
  · exact .after fun numerator => .after fun denominator => .after fun ratio => .after fun half =>
      .after fun ln => .lift (yields_mul half ln)

theorem yields_arccot (z : Complex) : Yields IsWorking z.arccot := by
  unfold arccot
  split
  · exact yields_ofReal (Decimal.yields_arccot z.re)
  · exact .after fun numerator => .after fun denominator => .after fun ratio => .after fun half =>
      .after fun ln => .lift (yields_mul half ln)

/-! ## Hyperbolic functions -/

theorem yields_sinh (z : Complex) : Yields IsWorking z.sinh := by
  unfold sinh
  exact .after fun pair => .after fun difference => .lift (yields_halve difference)

theorem yields_cosh (z : Complex) : Yields IsWorking z.cosh := by
  unfold cosh
  exact .after fun pair => .after fun sum => .lift (yields_halve sum)

theorem yields_tanh (z : Complex) : Yields IsWorking z.tanh := by
  unfold tanh
  exact .after fun cosh => .guard (.after fun sinh => .lift (yields_div sinh cosh))

theorem yields_coth (z : Complex) : Yields IsWorking z.coth := by
  unfold coth
  exact .after fun sinh => .guard (.after fun cosh => .lift (yields_div cosh sinh))

theorem yields_arcsinh (z : Complex) : Yields IsWorking z.arcsinh := by
  unfold arcsinh
  exact .after fun square => .after fun radicand => .after fun root => .after fun sum =>
    yields_ln sum

theorem yields_arccosh (z : Complex) : Yields IsWorking z.arccosh := by
  unfold arccosh
  exact .after fun square => .after fun radicand => .after fun root => .after fun sum =>
    yields_ln sum

theorem yields_arctanh (z : Complex) : Yields IsWorking z.arctanh := by
  unfold arctanh
  exact .after fun numerator => .after fun denominator => .after fun ratio => .after fun ln =>
    .lift (yields_halve ln)

theorem yields_arccoth (z : Complex) : Yields IsWorking z.arccoth := by
  unfold arccoth
  exact .after fun numerator => .after fun denominator => .after fun ratio => .after fun ln =>
    .lift (yields_halve ln)

end Calculator.Complex
