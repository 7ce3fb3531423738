import Calculator.Proofs.Numeral.Parse
import Calculator.Proofs.Real.Working
import Calculator.Real.Trigonometry

/-!
# The operations on real numbers answer working values

A primitive rounds its result and checks its size, so what it answers is a working value whatever
its operands are, and so is what an operation answers that ends with a primitive. Only an operation
that can hand back an operand, or an operand less its sign or its last digits, needs that operand to
be a working value.
-/

namespace Calculator

/-! ## Answers under a condition -/

/-- The value of the answer, if it has one, meets the condition. -/
def Yields {ε α : Type} (P : α → Prop) (r : Except ε α) : Prop := ∀ a, r = .ok a → P a

namespace Yields

variable {ε ε' α β : Type} {P : α → Prop} {Q : β → Prop} {r : Except ε α} {f : α → Except ε β}

/-- An answer with the property is one that yields it. -/
theorem pure {a : α} (h : P a) : Yields P (Pure.pure a : Except ε α) := by
  rintro _ ⟨⟩
  exact h

/-- An error promises nothing. -/
theorem error {e : ε} : Yields P (.error e : Except ε α) := by
  rintro _ ⟨⟩

/-- Two computations in a row, the second of which starts from what the first one yields. -/
theorem bind (first : Yields P r) (rest : ∀ a, P a → Yields Q (f a)) : Yields Q (r >>= f) := by
  intro b h
  obtain ⟨a, value, next⟩ := bind_eq_ok.1 h
  exact rest a (first a value) b next

/-- What comes last decides. -/
theorem after (rest : ∀ a, Yields Q (f a)) : Yields Q (r >>= f) := by
  intro b h
  obtain ⟨a, -, next⟩ := bind_eq_ok.1 h
  exact rest a b next

/-- A refusal before the rest has no value. -/
theorem guard {c : Prop} [Decidable c] {e : ε} {rest : PUnit → Except ε β}
    (h : Yields Q (rest ⟨⟩)) : Yields Q (if c then throw e >>= rest else rest ⟨⟩) := by
  split
  · exact error
  · exact h

/-- A function that carries the one property over to the other. -/
theorem map {g : α → β} (h : Yields P r) (next : ∀ a, P a → Q (g a)) : Yields Q (r.map g) := by
  intro b mapped
  obtain ⟨a, value, rfl⟩ := map_eq_ok.1 mapped
  exact next a (h a value)

/-- What is said of errors makes no difference. -/
theorem mapError {g : ε → ε'} (h : Yields P r) : Yields P (r.mapError g) := by
  cases r with
  | ok a =>
    rintro _ ⟨⟩
    exact h a rfl
  | error => exact error

/-- An arithmetic error is a mathematical one. -/
theorem lift {r : Except ArithmeticError α} (h : Yields P r) :
    Yields P (liftM r : Except MathError α) := h.mapError

end Yields

open Precision (working exponentBound)
open Decimal (IsWorking)

/-! ## Primitives -/

namespace Precision

variable {x y : Decimal}

/-- A number of few digits that passes the check is a working value. -/
theorem yields_check (few : x.digits ≤ working.digits) : Yields IsWorking (check x) := by
  intro z h
  obtain rfl := check_digits h
  unfold check at h
  split at h
  · rename_i vanishes
    exact .inl vanishes
  · split at h
    · cases h
    · split at h
      · cases h
      · exact .inr ⟨few, by omega, by omega⟩

/-- What is rounded and checked last is a working value; the primitives below end in this way. -/
theorem yields_round (x : Decimal) : Yields IsWorking (working.round x) :=
  yields_check (Decimal.digits_roundTo_le x Decimal.working_digits_pos)

theorem yields_roundParts (c e : ℤ) : Yields IsWorking (working.roundParts c e) :=
  yields_check (Decimal.digits_ofPartsRounded_le c e Decimal.working_digits_pos)

theorem yields_divide (x y : Decimal) : Yields IsWorking (working.divide x y) := by
  unfold divide
  split
  · exact .error
  · exact yields_roundParts _ _

/-- A number with an integral exponent is its own nearest integer. -/
theorem yields_toIntegral (h : x.IsWorking) : Yields IsWorking (working.toIntegral x) := by
  unfold toIntegral
  split
  · exact .pure h
  · split
    · exact .pure Decimal.isWorking_zero
    · exact yields_roundParts _ _

/-- A shift cuts digits off and checks what is left. -/
theorem yields_shift (x places : Decimal) : Yields IsWorking (working.shift x places) := by
  unfold shift
  refine .after fun n => .after fun amount => .guard ?_
  exact yields_roundParts _ _

/-- The digits of a logical result are as many as the precision has at most. -/
theorem yields_logical (op : Bool → Bool → Bool) (x y : Decimal) :
    Yields IsWorking (working.logical op x y) := by
  unfold logical
  exact .after fun left => .after fun right => .guard (yields_roundParts _ _)

theorem yields_invert (x : Decimal) : Yields IsWorking (working.invert x) := by
  unfold invert
  exact .after fun ds => .guard (yields_roundParts _ _)

theorem yields_sqrt (x : Decimal) : Yields IsWorking (working.sqrt x) := by
  unfold sqrt
  split
  · exact .pure Decimal.isWorking_zero
  · split
    · exact .error
    · exact yields_round _

theorem yields_ln (x : Decimal) : Yields IsWorking (working.ln x) := by
  unfold ln
  split
  · exact .error
  · split
    · exact .pure Decimal.isWorking_zero
    · exact yields_round _

theorem yields_log10 (x : Decimal) : Yields IsWorking (working.log10 x) := by
  unfold log10
  refine .guard ?_
  dsimp only
  split
  · exact yields_round _
  · exact .after fun ln => .after fun ten => .after fun quotient => yields_round _

theorem yields_exp (x : Decimal) : Yields IsWorking (working.exp x) := by
  unfold exp
  split
  · exact .pure (by decide)
  · split
    · exact .error
    · exact yields_round _

theorem yields_integerPower (base : Decimal) (n : ℤ) :
    Yields IsWorking (working.integerPower base n) := by
  unfold integerPower
  refine .after fun square => .after fun result => ?_
  split
  · exact .after fun reciprocal => yields_round _
  · exact yields_round _

/-- The ways of taking a power, by squaring, by a root and by the exponential, all end in a rounding. -/
theorem yields_power (base exponent : Decimal) :
    Yields IsWorking (working.power base exponent) := by
  unfold power
  split
  · exact .pure (by decide)
  · split
    · exact .guard (.pure Decimal.isWorking_zero)
    · split
      · exact yields_sqrt base
      · refine .after fun integral => ?_
        split
        · exact yields_integerPower base _
        · exact .guard (.after fun ln => .after fun product => .after fun result => yields_round _)

/-- A numeral that is read is rounded as every result is, unless it is zero. -/
theorem yields_ofNumeral (n : Numeral) : Yields IsWorking (working.ofNumeral n) := by
  cases wellFormed : n.isWellFormed with
  | false =>
    rw [ofNumeral_malformed wellFormed]
    exact .error
  | true =>
    by_cases vanishes : digitsValue n.digits = 0
    · rw [ofNumeral_zero wellFormed vanishes]
      exact .pure Decimal.isWorking_zero
    · rw [ofNumeral_eq wellFormed vanishes]
      refine Yields.after fun written => ?_
      dsimp only
      split
      · exact .error
      · exact yields_roundParts _ _

end Precision

namespace Decimal

variable {x y : Decimal}

/-! ## Arithmetic -/

theorem isWorking_one : one.IsWorking := by decide

/-- Renaming a condition as an error changes no value. -/
theorem yields_reported {r : Except Condition Decimal} (h : Yields IsWorking r) :
    Yields IsWorking (reported r) := h.mapError

/-- What is read is rounded at once. -/
theorem yields_parse (text : String) : Yields IsWorking (parse text) :=
  yields_reported (Precision.yields_ofNumeral _)

/-- An integer that needs no rounding. -/
theorem isWorking_ofInt {n : ℤ} (few : n.natAbs < 10 ^ 136) : (ofInt n).IsWorking := by
  have value : (ofInt n).value = n * 10 ^ (0 : ℤ) := value_ofParts n 0
  refine isWorking_iff.2 ⟨digits_ofParts_le few.le working_digits_pos, ?_⟩
  by_cases vanishes : n = 0
  · exact .inl (by rw [value, vanishes, Int.cast_zero, zero_mul])
  · have count := digitCount_pos n.natAbs
    have short : digitCount n.natAbs ≤ 136 := (digitCount_le_iff (by decide)).2 few
    have bound : exponentBound = 999999 := rfl
    rw [value]
    refine .inr ?_
    rw [log_abs vanishes]
    omega

theorem yields_add (x y : Decimal) : Yields IsWorking (x.add y) :=
  yields_reported (Precision.yields_round _)

theorem yields_sub (x y : Decimal) : Yields IsWorking (x.sub y) :=
  yields_reported (Precision.yields_round _)

theorem yields_mul (x y : Decimal) : Yields IsWorking (x.mul y) :=
  yields_reported (Precision.yields_round _)

theorem yields_div (x y : Decimal) : Yields IsWorking (x.div y) :=
  yields_reported (Precision.yields_divide x y)

theorem yields_rem (x y : Decimal) : Yields IsWorking (x.rem y) :=
  yields_reported (.after fun _ => Precision.yields_roundParts _ _)

theorem yields_divInteger (x y : Decimal) : Yields IsWorking (x.divInteger y) :=
  yields_reported (.after fun _ => Precision.yields_roundParts _ _)

theorem yields_sqr (x : Decimal) : Yields IsWorking x.sqr := yields_mul x x

/-- The larger one of two working values is one of them. -/
theorem IsWorking.max (hx : x.IsWorking) (hy : y.IsWorking) : (x.max y).IsWorking := by
  unfold Decimal.max
  split <;> assumption

theorem IsWorking.min (hx : x.IsWorking) (hy : y.IsWorking) : (x.min y).IsWorking := by
  unfold Decimal.min
  split <;> assumption

/-! ## Integral parts and digits -/

/-- A number without a fraction is answered as it is, so it has to be a working value. -/
theorem IsWorking.yields_round (h : x.IsWorking) : Yields IsWorking x.round :=
  yields_reported (Precision.yields_toIntegral h)

/-- Fewer digits than a working value has are few enough; more change nothing. -/
theorem IsWorking.yields_roundToPrecision (h : x.IsWorking) (d : ℕ) :
    Yields IsWorking (x.roundToPrecision d) := by
  refine yields_reported (Precision.yields_check ?_)
  change (x.roundTo d).digits ≤ working.digits
  by_cases fits : d = 0 ∨ x.digits ≤ d
  · have same : x.roundTo d = x := by
      rcases fits with rfl | few
      · exact ofParts_eq_self x
      · exact roundTo_eq_self few
    rw [same]
    exact h.digits_le
  · have few := digits_roundTo_le x (d := d) (by omega)
    have := h.digits_le
    omega

/-- The rounded number, or the next integer to it, which is a rounded sum. -/
theorem IsWorking.yields_integer (h : x.IsWorking) : Yields IsWorking x.integer := by
  unfold integer
  refine h.yields_round.bind fun rounded whole => ?_
  split
  · exact yields_sub rounded 1
  · split
    · exact yields_add rounded 1
    · exact .pure whole

/-- The fractional part is a rounded difference. -/
theorem yields_fractional (x : Decimal) : Yields IsWorking x.fractional := by
  unfold fractional
  exact .after fun whole => (yields_sub x whole).bind fun rest h => .pure h.abs

/-- The floor is the integer part, or one less by a rounded difference. -/
theorem IsWorking.yields_floor (h : x.IsWorking) : Yields IsWorking x.floor := by
  unfold floor
  refine h.yields_integer.bind fun whole hw => .after fun rest => ?_
  split
  · exact yields_sub whole 1
  · exact .pure hw

theorem IsWorking.yields_ceil (h : x.IsWorking) : Yields IsWorking x.ceil := by
  unfold ceil
  refine h.yields_integer.bind fun whole hw => .after fun rest => ?_
  split
  · exact yields_add whole 1
  · exact .pure hw

theorem yields_bitNot (x : Decimal) : Yields IsWorking x.bitNot := by
  unfold bitNot
  exact .after fun _ => yields_reported (Precision.yields_invert x)

/-- That the operands have to be integers changes none of them. -/
theorem yields_onDigits {op : Decimal → Decimal → Except Condition Decimal}
    (h : ∀ x y, Yields IsWorking (op x y)) (x y : Decimal) : Yields IsWorking (onDigits op x y) := by
  unfold onDigits
  exact .after fun _ => .after fun _ => yields_reported (h x y)

theorem yields_bitOr (x y : Decimal) : Yields IsWorking (x.bitOr y) :=
  yields_onDigits (Precision.yields_logical _) x y

theorem yields_bitAnd (x y : Decimal) : Yields IsWorking (x.bitAnd y) :=
  yields_onDigits (Precision.yields_logical _) x y

theorem yields_bitXor (x y : Decimal) : Yields IsWorking (x.bitXor y) :=
  yields_onDigits (Precision.yields_logical _) x y

theorem yields_shl (x places : Decimal) : Yields IsWorking (x.shl places) :=
  yields_onDigits Precision.yields_shift x places

theorem yields_shr (x places : Decimal) : Yields IsWorking (x.shr places) :=
  yields_shl x (-places)

/-! ## Powers and logarithms -/

/-- Each group of factors joins by a rounded product. -/
theorem IsWorking.yields_multiplyGroups (h : x.IsWorking) (n limit first : ℕ) :
    Yields IsWorking (multiplyGroups n limit first x) := by
  induction limit generalizing first x with
  | zero => exact .pure h
  | succ limit ih =>
    rw [multiplyGroups]
    split
    · exact .pure h
    · exact (yields_mul x _).bind fun product hp => ih hp _

/-- A factorial grows by rounded products only. -/
theorem yields_factorial (x : Decimal) : Yields IsWorking x.factorial := by
  unfold factorial
  split
  · exact .pure isWorking_one
  · refine .after fun fraction => .guard (.after fun n => .lift ?_)
    exact isWorking_one.yields_multiplyGroups n _ _

theorem yields_pow (x y : Decimal) : Yields IsWorking (x.pow y) := by
  unfold pow
  split
  · exact .pure isWorking_one
  · exact .guard (.lift (yields_reported (Precision.yields_power x y)))

theorem yields_sqrt (x : Decimal) : Yields IsWorking x.sqrt := by
  unfold sqrt
  exact .guard (.lift (yields_reported (Precision.yields_sqrt x)))

theorem yields_ln (x : Decimal) : Yields IsWorking x.ln := by
  unfold ln
  exact .guard (.lift (yields_reported (Precision.yields_ln x)))

theorem yields_log10 (x : Decimal) : Yields IsWorking x.log10 := by
  unfold log10
  exact .guard (.lift (yields_reported (Precision.yields_log10 x)))

theorem yields_log2 (x : Decimal) : Yields IsWorking x.log2 := by
  unfold log2
  exact .after fun ln => .after fun two => .lift (yields_div ln two)

theorem yields_exp (x : Decimal) : Yields IsWorking x.exp := by
  unfold exp
  exact .lift (yields_reported (Precision.yields_exp x))

/-! ## Trigonometry -/

/-- What the digits of pi are evaluated for. -/
theorem digits_pi : pi.IsWorking ∧ (pi + pi).IsWorking ∧ pi.exponent = -135 ∧
    ofParts 314 (-2) < pi ∧ pi < ofParts 315 (-2) := by decide +kernel

/-- The ratio of a circle is rounded to the working precision. -/
theorem isWorking_pi : pi.IsWorking := digits_pi.1

/-- The base of the logarithms is rounded to the working precision. -/
theorem isWorking_e : e.IsWorking := by decide +kernel

theorem yields_halfPi : Yields IsWorking halfPi := yields_div pi 2

/-- A partial sum is a rounded one, or the first term. -/
theorem AlternatingSum.yields_run {s : AlternatingSum} (h : s.sum.IsWorking) (square : Decimal)
    (limit : ℕ) : Yields (·.sum.IsWorking) (run square limit s) := by
  have step (s : AlternatingSum) : Yields (·.sum.IsWorking) (s.step square) := by
    unfold AlternatingSum.step
    refine .after fun numerator => .after fun factors => .after fun denominator =>
      .after fun count => .after fun term => ?_
    split
    · exact (yields_sub s.sum term).bind fun sum hs => .pure hs
    · exact (yields_add s.sum term).bind fun sum hs => .pure hs
  induction limit generalizing s with
  | zero => exact .pure h
  | succ limit ih =>
    rw [run]
    split
    · exact .pure h
    · exact (step s).bind fun next hn => ih hn

/-- The first term is the sum if the loop is left at once, so it has to be a working value. -/
theorem IsWorking.yields_alternatingSeries (h : x.IsWorking) (angle count : Decimal) :
    Yields IsWorking (alternatingSeries x angle count) := by
  unfold alternatingSeries
  refine .after fun square => ?_
  exact (AlternatingSum.yields_run h square _).bind fun s hs => .pure hs

/-- A small result is replaced by zero, another one is kept. -/
theorem IsWorking.yields_snapToZero (h : x.IsWorking) : Yields IsWorking x.snapToZero := by
  unfold snapToZero
  refine .after fun shown => .pure ?_
  split
  · exact isWorking_zero
  · exact h

theorem yields_reduceAngle (x : Decimal) : Yields IsWorking x.reduceAngle := by
  unfold reduceAngle
  exact .after fun turn => yields_rem x turn

theorem yields_sin (x : Decimal) : Yields IsWorking x.sin := by
  unfold sin
  refine (yields_reduceAngle x).lift.bind fun angle ha => ?_
  exact (ha.yields_alternatingSeries angle 2).lift.bind fun sum hs => hs.yields_snapToZero.lift

theorem yields_cos (x : Decimal) : Yields IsWorking x.cos := by
  unfold cos
  refine .after fun angle => ?_
  exact (isWorking_one.yields_alternatingSeries angle 1).lift.bind fun sum hs =>
    hs.yields_snapToZero.lift

theorem yields_tan (x : Decimal) : Yields IsWorking x.tan := by
  unfold tan
  refine .after fun angle => .after fun cos => .guard (.after fun sin => ?_)
  exact .lift (yields_div sin cos)

theorem yields_cot (x : Decimal) : Yields IsWorking x.cot := by
  unfold cot
  refine .after fun angle => .after fun sin => .guard (.after fun cos => ?_)
  exact .lift (yields_div cos sin)

/-- Every sum after the first is a rounded one. -/
theorem OddSum.yields_run {s : OddSum} (h : s.sum.IsWorking) (factor : Decimal) (limit : ℕ) :
    Yields (·.sum.IsWorking) (run factor limit s) := by
  have step (s : OddSum) : Yields (·.sum.IsWorking) (s.step factor) := by
    unfold OddSum.step
    refine .after fun numerator => .after fun denominator => .after fun term => ?_
    exact (yields_add s.sum term).bind fun sum hs => .pure hs
  induction limit generalizing s with
  | zero => exact .pure h
  | succ limit ih =>
    rw [run]
    split
    · exact .pure h
    · exact (step s).bind fun next hn => ih hn

theorem IsWorking.yields_arctanSeries (h : x.IsWorking) : Yields IsWorking x.arctanSeries := by
  unfold arctanSeries
  refine .after fun square => ?_
  exact (OddSum.yields_run h (-square) _).bind fun s hs => .pure hs

/-- The halvings and the doublings are rounded, and a small number goes to the series as it is. -/
theorem IsWorking.yields_arctanHalving (h : x.IsWorking) (limit : ℕ) :
    Yields IsWorking (arctanHalving limit x) := by
  cases limit with
  | zero => exact h.yields_arctanSeries.lift
  | succ limit =>
    rw [arctanHalving]
    split
    · exact .after fun half => .after fun angle => .lift (yields_mul angle 2)
    · exact h.yields_arctanSeries.lift

theorem IsWorking.yields_arctan (h : x.IsWorking) : Yields IsWorking x.arctan :=
  h.yields_arctanHalving 8

/-- At the ends of the domain the answer is a multiple of a quarter turn. -/
theorem yields_arcsin (x : Decimal) : Yields IsWorking x.arcsin := by
  unfold arcsin
  split
  · exact yields_halfPi.lift
  · split
    · exact yields_halfPi.lift.bind fun quarter hq => .pure hq.neg
    · split
      · exact .error
      · refine .after fun square => .after fun rest => .after fun cos => ?_
        exact (yields_div x cos).lift.bind fun tangent ht => ht.yields_arctan

theorem yields_arccos (x : Decimal) : Yields IsWorking x.arccos := by
  unfold arccos
  exact .guard (.after fun quarter => .after fun sine => .lift (yields_sub quarter sine))

theorem yields_arccot (x : Decimal) : Yields IsWorking x.arccot := by
  unfold arccot
  exact .after fun quarter => .after fun tangent => .lift (yields_sub quarter tangent)

end Decimal

end Calculator
