import Calculator.Complex.Trigonometry
import Calculator.Proofs.Real.Parity

/-!
# Conjugation

Every step of complex arithmetic treats the two signs of an imaginary part alike, so an operation on
conjugates answers the conjugate, digit for digit. The functions inherit this from their steps.
`exp (iz)` and `exp (-iz)` change their places when `z` is conjugated: sine and cosine, and the
tangents made of them, then fail for another reason, though for no other numbers. Logarithms and
powers need a number off the negative real axis, where the angle is `π` on both sides.
-/

namespace Calculator

/-! ## The value of an answer -/

section Value

variable {ε α β γ : Type}

/-- Forgetting the error does not concern the value. -/
theorem toOption_map (f : α → β) (r : Except ε α) : (f <$> r).toOption = r.toOption.map f := by
  cases r <;> rfl

/-- What follows two answers with values that correspond. -/
theorem toOption_bind_of_map {r : Except ε β} {s : Except ε α} {h : α → β} {f : β → Except ε γ}
    {g : α → Except ε γ} (first : r.toOption = (h <$> s).toOption)
    (rest : ∀ a, (f (h a)).toOption = (g a).toOption) :
    (r >>= f).toOption = (s >>= g).toOption := by
  cases r <;> cases s <;> simp_all [Except.toOption, bind, Except.bind, Functor.map, Except.map]

/-- The order of two steps that do not depend on each other shows in the error only. -/
theorem toOption_bind_swap (r : Except ε α) (s : Except ε β) (f : α → β → Except ε γ) :
    (r >>= fun a => s >>= fun b => f a b).toOption =
      (s >>= fun b => r >>= fun a => f a b).toOption := by
  cases r <;> cases s <;> rfl

end Value

namespace Complex

/-- The number with the sign of its imaginary part changed. -/
def conj (z : Complex) : Complex := ⟨z.re, -z.im⟩

/-- The number lies on the negative real axis. -/
def IsNegative (z : Complex) : Prop := z.isReal = true ∧ z.re.isNegative = true

instance (z : Complex) : Decidable z.IsNegative := inferInstanceAs (Decidable (_ ∧ _))

variable (z w : Complex)

@[simp] theorem re_conj : z.conj.re = z.re := rfl

@[simp] theorem im_conj : z.conj.im = -z.im := rfl

@[simp] theorem conj_ofReal (x : Decimal) : (ofReal x).conj = ofReal x := by
  rw [conj, ofReal, Decimal.neg_zero_eq]

@[simp] theorem isReal_conj : z.conj.isReal = z.isReal := Decimal.isZero_neg z.im

@[simp] theorem isZero_conj : z.conj.isZero = z.isZero := by
  rw [isZero, isZero, re_conj, im_conj, Decimal.isZero_neg]

/-- The special cases of real operands are the same for both numbers. -/
@[simp] theorem isNonnegative_conj : z.conj.isNonnegative = z.isNonnegative := by
  rw [isNonnegative, isNonnegative, isReal_conj, re_conj]

@[simp] theorem re_neg : (-z).re = -z.re := rfl

@[simp] theorem im_neg : (-z).im = -z.im := rfl

theorem conj_neg : (-z).conj = -z.conj := rfl

/-- Zero has no sign, so the opposite of the opposite is the number itself. -/
theorem neg_neg_eq : - -z = z := by
  cases z
  simp only [Neg.neg, neg]
  congr 1 <;> exact Decimal.neg_neg _

/-! ## Arithmetic -/

/-- Both parts of a sum come from one kind of part only. -/
theorem add_conj : z.conj.add w.conj = conj <$> z.add w := by
  simp only [add, re_conj, im_conj, Decimal.add_neg_neg, bind_map_left, map_bind, map_pure]
  rfl

theorem sub_conj : z.conj.sub w.conj = conj <$> z.sub w := by
  simp only [sub, re_conj, im_conj, Decimal.sub_neg_neg, bind_map_left, map_bind, map_pure]
  rfl

/-- The products of a real and an imaginary part change their signs, the other two keep them. -/
theorem mul_conj : z.conj.mul w.conj = conj <$> z.mul w := by
  simp only [mul, re_conj, im_conj, Decimal.mul_neg_neg]
  simp only [Decimal.mul_neg_left, Decimal.mul_neg_right, Decimal.add_neg_neg, bind_map_left,
    map_bind, map_pure]
  rfl

/-- The square of the magnitude does not see the sign of a part. -/
theorem sqr_conj : z.conj.sqr = z.sqr := by
  simp only [sqr, re_conj, im_conj, Decimal.sqr_neg]

/-- The divisor counts through its square, and the numerators are sums of products. -/
theorem div_conj : z.conj.div w.conj = conj <$> z.div w := by
  simp only [div, sqr_conj, map_bind, map_guard]
  refine bind_congr fun denominator => ?_
  simp only [re_conj, im_conj, Decimal.mul_neg_neg]
  simp only [Decimal.mul_neg_left, Decimal.mul_neg_right, Decimal.sub_neg_neg, Decimal.div_neg_left,
    bind_map_left, map_pure]
  rfl

theorem div_conj_ofReal (x : Decimal) : z.conj.div (ofReal x) = conj <$> z.div (ofReal x) := by
  rw [← div_conj, conj_ofReal]

theorem scale_conj (factor : Decimal) : z.conj.scale factor = conj <$> z.scale factor := by
  simp only [scale, re_conj, im_conj, Decimal.mul_neg_left, bind_map_left, map_bind, map_pure]
  rfl

theorem halve_conj : z.conj.halve = conj <$> z.halve := by
  rw [halve, div_conj_ofReal, halve]

theorem mul_neg_left : (-z).mul w = Neg.neg <$> z.mul w := by
  simp only [mul, re_neg, im_neg, Decimal.mul_neg_left, Decimal.sub_neg_neg, Decimal.add_neg_neg,
    bind_map_left, map_bind, map_pure]
  rfl

/-- A difference with its operands exchanged is the opposite one. -/
theorem sub_swap : w.sub z = Neg.neg <$> z.sub w := by
  simp only [sub, Decimal.sub_swap z.re, Decimal.sub_swap z.im, bind_map_left, map_bind, map_pure]
  rfl

theorem add_swap : w.add z = z.add w := by
  rw [add, add, Decimal.add_swap w.re, Decimal.add_swap w.im]

theorem div_neg_neg : (-z).div (-w) = z.div w := by
  simp only [div, sqr, re_neg, im_neg, Decimal.sqr_neg, Decimal.mul_neg_neg]

/-! ## Exponential and hyperbolic functions -/

theorem exp_conj : z.conj.exp = conj <$> z.exp := by
  simp only [exp, re_conj, im_conj, isReal_conj, Decimal.cos_neg, Decimal.sin_neg, map_bind]
  refine bind_congr fun magnitude => ?_
  split
  · rw [map_pure, conj_ofReal]
  · simp only [map_bind, bind_map_left, ← liftM_map, ← scale_conj]
    rfl

/-- The two exponentials that the hyperbolic functions start from. -/
theorem expPair_conj : z.conj.expPair = Prod.map conj conj <$> z.expPair := by
  simp only [expPair, ← conj_neg, exp_conj, bind_map_left, map_bind, map_pure, Prod.map]

theorem sinh_conj : z.conj.sinh = conj <$> z.sinh := by
  simp only [sinh, expPair_conj, Prod.map, sub_conj, halve_conj, liftM_map, bind_map_left, map_bind]

theorem cosh_conj : z.conj.cosh = conj <$> z.cosh := by
  simp only [cosh, expPair_conj, Prod.map, add_conj, halve_conj, liftM_map, bind_map_left, map_bind]

theorem tanh_conj : z.conj.tanh = conj <$> z.tanh := by
  simp only [tanh, cosh_conj, sinh_conj, isZero_conj, div_conj, liftM_map, bind_map_left, map_bind,
    map_guard]

theorem coth_conj : z.conj.coth = conj <$> z.coth := by
  simp only [coth, cosh_conj, sinh_conj, isZero_conj, div_conj, liftM_map, bind_map_left, map_bind,
    map_guard]

/-! ## Sine, cosine and the tangents -/

/-- Multiplication by `i` takes conjugates to numbers that differ from conjugates by the sign. -/
theorem i_mul_conj : i.mul z.conj = (fun w => -w.conj) <$> i.mul z := by
  have conj_minus : (-i).conj = i := by decide
  calc i.mul z.conj = (-i).conj.mul z.conj := by rw [conj_minus]
    _ = conj <$> Neg.neg <$> i.mul z := by rw [mul_conj, mul_neg_left]
    _ = (fun w => -w.conj) <$> i.mul z := Functor.map_map _ _ _

/-- The pair of the conjugate holds the conjugates of the pair, in the other order. -/
theorem eulerPair_conj :
    z.conj.eulerPair.toOption =
      ((fun (positive, negative) => (negative.conj, positive.conj)) <$> z.eulerPair).toOption := by
  simp only [eulerPair, i_mul_conj, liftM_map, bind_map_left, map_bind, map_pure]
  refine toOption_bind_of_map (h := id) (by rw [id_map]) fun iz => ?_
  rw [id, neg_neg_eq, ← conj_neg, exp_conj, exp_conj]
  simp only [bind_map_left]
  exact toOption_bind_swap _ _ _

/-- The exponentials change places here, so only the values are the same, and not which of them
fails first. -/
theorem sin_conj : z.conj.sin.toOption = (conj <$> z.sin).toOption := by
  simp only [sin, isReal_conj, re_conj]
  split
  · simp only [map_bind, map_pure, conj_ofReal]
  · rw [map_bind]
    refine toOption_bind_of_map z.eulerPair_conj fun (positive, negative) => ?_
    -- conjugates in the other order change the sign of the difference, and `2i` has it too
    have divisor : (-(⟨.zero, 2⟩ : Complex)).conj = ⟨.zero, 2⟩ := by decide
    have quotient (d : Complex) : (-d).conj.div ⟨.zero, 2⟩ = conj <$> d.div ⟨.zero, 2⟩ := by
      conv_lhs => rw [← divisor]
      rw [div_conj, div_neg_neg]
    simp only [sub_conj, sub_swap positive, liftM_map, bind_map_left, map_bind, quotient]

theorem cos_conj : z.conj.cos.toOption = (conj <$> z.cos).toOption := by
  simp only [cos, isReal_conj, re_conj]
  split
  · simp only [map_bind, map_pure, conj_ofReal]
  · rw [map_bind]
    refine toOption_bind_of_map z.eulerPair_conj fun (positive, negative) => ?_
    simp only [add_conj, add_swap positive, liftM_map, bind_map_left, map_bind, halve_conj]

/-- A quotient of two functions that refuses a zero divisor, as the tangents are: it corresponds to
another one where dividend and divisor do. -/
theorem toOption_ratio {n d n' d' : Except MathError Complex} {e : MathError}
    {f g h : Complex → Complex}
    (dividend : n'.toOption = (f <$> n).toOption) (divisor : d'.toOption = (g <$> d).toOption)
    (zero : ∀ w, (g w).isZero = w.isZero)
    (quotient : ∀ z w, (f z).div (g w) = h <$> z.div w) :
    (do
      let w ← d'
      if w.isZero then throw e
      (← n').div w : Except MathError Complex).toOption =
    (h <$> (do
      let w ← d
      if w.isZero then throw e
      (← n).div w : Except MathError Complex)).toOption := by
  rw [map_bind]
  refine toOption_bind_of_map divisor fun w => ?_
  rw [zero, map_guard]
  split
  · rfl
  · rw [map_bind]
    refine toOption_bind_of_map dividend fun z => ?_
    rw [quotient, liftM_map]

theorem tan_conj : z.conj.tan.toOption = (conj <$> z.tan).toOption := by
  simp only [tan, isReal_conj, re_conj]
  split
  · simp only [map_bind, map_pure, conj_ofReal]
  · exact toOption_ratio z.sin_conj z.cos_conj isZero_conj div_conj

theorem cot_conj : z.conj.cot.toOption = (conj <$> z.cot).toOption := by
  simp only [cot, isReal_conj, re_conj]
  split
  · simp only [map_bind, map_pure, conj_ofReal]
  · exact toOption_ratio z.cos_conj z.sin_conj isZero_conj div_conj

/-! ## Logarithms and powers -/

/-- The magnitude is a function of its square. -/
theorem abs_conj : z.conj.abs = z.abs := by rw [abs, sqr_conj, abs]

variable {z}

/-- Off the real axis the angle of the conjugate is the opposite angle. -/
theorem arg_conj (h : z.isReal = false) : z.conj.arg = Neg.neg <$> z.arg := by
  have nonzero : z.im.isZero = false := h
  simp only [arg, im_conj, re_conj, Decimal.isZero_neg, nonzero, Bool.false_eq_true, if_false,
    abs_conj, map_bind, Decimal.isNegative_neg nonzero]
  refine bind_congr fun modulus => bind_congr fun cosine => bind_congr fun angle => ?_
  cases z.im.isNegative <;> simp

/-- Off the negative real axis the angle changes its sign. -/
theorem ln_conj (h : ¬z.IsNegative) : z.conj.ln = conj <$> z.ln := by
  simp only [ln, isNonnegative_conj, re_conj]
  split
  · simp only [map_bind, map_pure, conj_ofReal]
  · rename_i other
    have off : z.isReal = false := by
      rw [← Bool.not_eq_true]
      intro real
      have below : z.re.isNegative = false := by simpa [IsNegative, real] using h
      exact other (by rw [isNonnegative, real, below]; rfl)
    simp only [abs_conj, arg_conj off, map_bind, bind_map_left, map_pure]
    rfl

theorem log2_conj (h : ¬z.IsNegative) : z.conj.log2 = conj <$> z.log2 := by
  simp only [log2, isNonnegative_conj, re_conj]
  split
  · simp only [map_bind, map_pure, conj_ofReal]
  · simp only [ln_conj h, map_mapError, bind_map_left, map_bind, div_conj_ofReal, liftM_map]

theorem log10_conj (h : ¬z.IsNegative) : z.conj.log10 = conj <$> z.log10 := by
  simp only [log10, isNonnegative_conj, re_conj]
  split
  · simp only [map_bind, map_pure, conj_ofReal]
  · simp only [ln_conj h, map_mapError, bind_map_left, map_bind, div_conj_ofReal, liftM_map]

/-- Powers with real exponents go through the logarithm. -/
theorem pow_conj (h : ¬z.IsNegative) (exponent : Decimal) :
    z.conj.pow (ofReal exponent) = conj <$> z.pow (ofReal exponent) := by
  simp only [pow, isNonnegative_conj, isZero_conj, re_conj]
  split
  · simp only [map_bind, map_pure, conj_ofReal]
  · split
    · rfl
    · have product (l : Complex) :
          (ofReal exponent).mul l.conj = conj <$> (ofReal exponent).mul l := by
        rw [← mul_conj, conj_ofReal]
      simp only [ln_conj h, bind_map_left, map_bind, product, liftM_map, exp_conj]

theorem sqrt_conj (h : ¬z.IsNegative) : z.conj.sqrt = conj <$> z.sqrt := pow_conj h _

/-! ## Conjugation commutes -/

/-- The operations of arithmetic, the exponential and the hyperbolic functions answer the conjugate
on conjugates, or fail with the same error. Sine, cosine and the tangents answer the conjugate, or
fail on both. Logarithms, roots and powers with a real exponent are like the exponential for every
number that is not on the negative real axis. -/
theorem conj_commutes (z w : Complex) :
    (z.conj.add w.conj = (z.add w).map conj ∧ z.conj.sub w.conj = (z.sub w).map conj ∧
      z.conj.mul w.conj = (z.mul w).map conj ∧ z.conj.div w.conj = (z.div w).map conj) ∧
    (∀ f ∈ [exp, sinh, cosh, tanh, coth], f z.conj = (f z).map conj) ∧
    (∀ f ∈ [sin, cos, tan, cot], (f z.conj).toOption = (f z).toOption.map conj) ∧
    (¬z.IsNegative →
      (∀ f ∈ [ln, log2, log10, sqrt], f z.conj = (f z).map conj) ∧
      ∀ x, z.conj.pow (ofReal x) = (z.pow (ofReal x)).map conj) := by
  refine ⟨⟨add_conj z w, sub_conj z w, mul_conj z w, div_conj z w⟩, ?_, ?_, fun h => ⟨?_, ?_⟩⟩
  · simp only [List.forall_mem_cons, List.not_mem_nil, false_imp_iff, implies_true, and_true]
    exact ⟨exp_conj z, sinh_conj z, cosh_conj z, tanh_conj z, coth_conj z⟩
  · simp only [List.forall_mem_cons, List.not_mem_nil, false_imp_iff, implies_true, and_true,
      ← toOption_map]
    exact ⟨sin_conj z, cos_conj z, tan_conj z, cot_conj z⟩
  · simp only [List.forall_mem_cons, List.not_mem_nil, false_imp_iff, implies_true, and_true]
    exact ⟨ln_conj h, log2_conj h, log10_conj h, sqrt_conj h⟩
  · exact pow_conj h

/-- One plus two i: the cube of its conjugate is the conjugate of its cube, and the same holds of
its logarithm, its exponential and its sine. -/
theorem one_add_two_i_conj :
    let z : Complex := ⟨1, 2⟩
    let w : Complex := ⟨1, -2⟩
    ¬z.IsNegative ∧ ln w = (ln z).map conj ∧ w.pow (ofReal 3) = (z.pow (ofReal 3)).map conj ∧
      exp w = (exp z).map conj ∧ (sin w).toOption = (sin z).toOption.map conj := by
  have off : ¬(⟨1, 2⟩ : Complex).IsNegative := by decide
  obtain ⟨-, whole, values, logarithms⟩ := conj_commutes ⟨1, 2⟩ ⟨1, 2⟩
  obtain ⟨logs, powers⟩ := logarithms off
  exact ⟨off, logs ln (by simp), powers 3, whole exp (by simp), values sin (by simp)⟩

/-- On the negative real axis the logarithm is not the conjugate of itself. -/
example : ln (ofReal (-1)) = .ok ⟨.zero, .pi⟩ := by decide +kernel

end Complex

end Calculator
