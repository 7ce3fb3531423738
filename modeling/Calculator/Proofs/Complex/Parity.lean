import Calculator.Proofs.Complex.Conjugation

/-!
# Odd and even functions

The opposite of a number has the exponentials of the number in the other order, so that the functions
made of them change the sign of their difference and keep their sum, digit for digit. The order in
which the two exponentials are formed shows in the error only.
-/

namespace Calculator

namespace Complex

variable (z w : Complex)

theorem neg_ofReal (x : Decimal) : ofReal (-x) = -ofReal x := by
  simp only [ofReal, Neg.neg, neg]
  exact congrArg _ Decimal.neg_zero_eq.symm

theorem isReal_neg : (-z).isReal = z.isReal := Decimal.isZero_neg z.im

/-- Zero is its own opposite. -/
theorem isZero_neg : (-z).isZero = z.isZero := by
  rw [isZero, isZero, re_neg, im_neg, Decimal.isZero_neg, Decimal.isZero_neg]

/-! ## Arithmetic -/

/-- Every product of a multiplication changes its sign. -/
theorem mul_neg_right : z.mul (-w) = Neg.neg <$> z.mul w := by
  simp only [mul, re_neg, im_neg, Decimal.mul_neg_right, Decimal.sub_neg_neg, Decimal.add_neg_neg,
    bind_map_left, map_bind, map_pure]
  rfl

/-- The dividend counts in both numerators, and the divisor's square is the same. -/
theorem div_neg_left : (-z).div w = Neg.neg <$> z.div w := by
  simp only [div, map_bind, map_guard]
  refine bind_congr fun denominator => ?_
  simp only [re_neg, im_neg, Decimal.mul_neg_left, Decimal.add_neg_neg, Decimal.sub_neg_neg,
    Decimal.div_neg_left, bind_map_left, map_pure]
  rfl

theorem div_neg_right : z.div (-w) = Neg.neg <$> z.div w := by
  rw [← div_neg_left, ← div_neg_neg (-z) w, neg_neg_eq]

/-! ## Pairs of exponentials -/

/-- The exponentials of the opposite number are those of the number, in the other order. -/
theorem expPair_neg : (-z).expPair.toOption = (Prod.swap <$> z.expPair).toOption := by
  simp only [expPair, neg_neg_eq, map_bind, map_pure, Prod.swap_prod_mk]
  exact toOption_bind_swap _ _ _

/-- The opposite number exchanges the two exponentials, so errors are not compared. -/
theorem eulerPair_neg : (-z).eulerPair.toOption = (Prod.swap <$> z.eulerPair).toOption := by
  simp only [eulerPair, mul_neg_right, liftM_map, bind_map_left, map_bind, map_pure, Prod.swap_prod_mk]
  refine toOption_bind_of_map (h := id) (by rw [id_map]) fun iz => ?_
  rw [id, neg_neg_eq]
  exact toOption_bind_swap _ _ _

/-! ## Trigonometric functions -/

/-- The sine is the difference of the two exponentials. -/
theorem sin_neg : (-z).sin.toOption = (Neg.neg <$> z.sin).toOption := by
  simp only [sin, isReal_neg, re_neg]
  split
  · simp only [Decimal.sin_neg, bind_map_left, map_bind, map_pure, neg_ofReal]
  · rw [map_bind]
    refine toOption_bind_of_map z.eulerPair_neg fun pair => ?_
    obtain ⟨positive, negative⟩ := pair
    simp only [Prod.swap_prod_mk, sub_swap positive, div_neg_left, liftM_map, bind_map_left,
      map_bind]

/-- The cosine is their sum. -/
theorem cos_neg : (-z).cos.toOption = z.cos.toOption := by
  simp only [cos, isReal_neg, re_neg]
  split
  · rw [Decimal.cos_neg]
  · refine toOption_bind_of_map z.eulerPair_neg fun pair => ?_
    obtain ⟨positive, negative⟩ := pair
    simp only [Prod.swap_prod_mk, add_swap positive]

/-- A quotient of an odd function by an even one is odd. -/
theorem tan_neg : (-z).tan.toOption = (Neg.neg <$> z.tan).toOption := by
  simp only [tan, isReal_neg, re_neg]
  split
  · simp only [Decimal.tan_neg, bind_map_left, map_bind, map_pure, neg_ofReal]
  · exact toOption_ratio (g := id) z.sin_neg (by rw [id_map, cos_neg]) (fun _ => rfl) div_neg_left

theorem cot_neg : (-z).cot.toOption = (Neg.neg <$> z.cot).toOption := by
  simp only [cot, isReal_neg, re_neg]
  split
  · simp only [Decimal.cot_neg, bind_map_left, map_bind, map_pure, neg_ofReal]
  · exact toOption_ratio (f := id) (by rw [id_map, cos_neg]) z.sin_neg isZero_neg div_neg_right

/-! ## Hyperbolic functions -/

/-- The hyperbolic sine is a difference of exponentials that change places. -/
theorem sinh_neg : (-z).sinh.toOption = (Neg.neg <$> z.sinh).toOption := by
  rw [sinh, sinh, map_bind]
  refine toOption_bind_of_map z.expPair_neg fun pair => ?_
  obtain ⟨positive, negative⟩ := pair
  simp only [Prod.swap_prod_mk, sub_swap positive, halve, div_neg_left, liftM_map, bind_map_left,
    map_bind]

/-- The hyperbolic cosine is their sum. -/
theorem cosh_neg : (-z).cosh.toOption = z.cosh.toOption := by
  rw [cosh, cosh]
  refine toOption_bind_of_map z.expPair_neg fun pair => ?_
  obtain ⟨positive, negative⟩ := pair
  simp only [Prod.swap_prod_mk, add_swap positive]

theorem tanh_neg : (-z).tanh.toOption = (Neg.neg <$> z.tanh).toOption :=
  toOption_ratio (g := id) z.sinh_neg (by rw [id_map, cosh_neg]) (fun _ => rfl) div_neg_left

theorem coth_neg : (-z).coth.toOption = (Neg.neg <$> z.coth).toOption :=
  toOption_ratio (f := id) (by rw [id_map, cosh_neg]) z.sinh_neg isZero_neg div_neg_right

/-! ## Parity -/

/-- On real numbers the sine, the tangents, the inverse tangent and the inverse sine are odd and the
cosine is even, in their digits and in their errors. On complex numbers the sine, the tangents and
their hyperbolic counterparts are odd and both cosines even, to the last digit, where they have a
value; they have none for the opposite of a number without one. -/
theorem odd_or_even :
    (∀ x : Decimal,
      (∀ f ∈ [Decimal.sin, Decimal.tan, Decimal.cot, Decimal.arctan, Decimal.arcsin],
        f (-x) = (f x).map (-·)) ∧
      (-x).cos = x.cos) ∧
    ∀ z : Complex,
      (∀ f ∈ [sin, tan, cot, sinh, tanh, coth], (f (-z)).toOption = (f z).toOption.map (-·)) ∧
      ∀ f ∈ [cos, cosh], (f (-z)).toOption = (f z).toOption := by
  simp only [List.forall_mem_cons, List.not_mem_nil, false_imp_iff, implies_true, and_true,
    ← toOption_map]
  refine ⟨fun x => ⟨⟨?_, ?_, ?_, ?_, ?_⟩, x.cos_neg⟩, fun z => ⟨⟨?_, ?_, ?_, ?_, ?_, ?_⟩, ?_, ?_⟩⟩
  exacts [x.sin_neg, x.tan_neg, x.cot_neg, x.arctan_neg, x.arcsin_neg, z.sin_neg, z.tan_neg,
    z.cot_neg, z.sinh_neg, z.tanh_neg, z.coth_neg, z.cos_neg, z.cosh_neg]

/-- One has an inverse sine and a hyperbolic sine, and minus one has the opposites of both. -/
theorem one_odd :
    (Decimal.arcsin 1).toOption.isSome = true ∧
      Decimal.arcsin (-1) = (Decimal.arcsin 1).map (-·) ∧
      (sinh (ofReal 1)).toOption.isSome = true ∧
      (sinh (-ofReal 1)).toOption = (sinh (ofReal 1)).toOption.map (-·) := by
  obtain ⟨real, complex⟩ := odd_or_even
  refine ⟨by decide +kernel, (real 1).1 Decimal.arcsin (by simp), by decide +kernel, ?_⟩
  exact (complex (ofReal 1)).1 sinh (by simp)

end Complex

end Calculator
