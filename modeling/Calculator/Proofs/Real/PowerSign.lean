import Mathlib.Algebra.Ring.Parity
import Calculator.Proofs.Precision.Power
import Calculator.Proofs.Real.Parity

/-!
# Integral powers under a change of sign

Repeated squaring with the opposite square goes through the same numbers, except that the factor for
the first binary digit has the opposite sign: the squares after it are those of the other base. A
longer exponent sees the magnitude of the base only and sets the sign afterwards. Both ways a power
with an even exponent is the same for a number and its opposite, and one with an odd exponent has
the opposite sign, down to the last digit and the failures.
-/

namespace Calculator.Precision

open Decimal

variable {p : Precision} {x y b e : Decimal} {k : ℤ}

/-- What an integral power makes of a change of sign. -/
def signed (k : ℤ) (x : Decimal) : Decimal := if k % 2 = 0 then x else -x

/-- An even power does not see the sign. -/
theorem signed_of_even (even : k % 2 = 0) (x : Decimal) : signed k x = x := if_pos even

/-- An odd power keeps it. -/
theorem signed_of_odd (odd : k % 2 = 1) (x : Decimal) : signed k x = -x := if_neg (by omega)

@[simp] theorem signed_natAbs (k : ℤ) : signed k.natAbs = signed k := by
  funext x
  have parity : (k.natAbs : ℤ) % 2 = 0 ↔ k % 2 = 0 := by omega
  simp only [signed, parity]

/-- Two changes of sign are none. -/
theorem neg_map_neg {ε : Type} (r : Except ε Decimal) : Neg.neg <$> Neg.neg <$> r = r := by
  rw [Functor.map_map]
  simp

/-- Rounding is odd, so it does not see what the sign comes from. -/
theorem round_signed (k : ℤ) (x : Decimal) : p.round (signed k x) = signed k <$> p.round x := by
  by_cases even : k % 2 = 0
  · simp only [funext (signed_of_even even), id_map']
  · have odd : k % 2 = 1 := by omega
    simp only [funext (signed_of_odd odd)]
    exact p.round_neg x

/-- The sign of a divisor is that of the quotient. -/
theorem divide_signed (k : ℤ) (x y : Decimal) :
    p.divide x (signed k y) = signed k <$> p.divide x y := by
  by_cases even : k % 2 = 0
  · simp only [funext (signed_of_even even), id_map']
  · have odd : k % 2 = 1 := by omega
    simp only [funext (signed_of_odd odd)]
    exact p.divide_neg_right x y

/-! ## Repeated squaring -/

theorem multiply_neg_neg (x y : Decimal) : p.multiply (-x) (-y) = p.multiply x y := by
  rw [multiply_neg, multiply_swap, multiply_neg, multiply_swap, neg_map_neg]

theorem multiply_neg_left (x y : Decimal) : p.multiply (-x) y = Neg.neg <$> p.multiply x y := by
  rw [multiply_swap, multiply_neg, multiply_swap]

/-- The sign of the product goes through the loop. -/
theorem multiplyPower_neg_left (limit n : ℕ) (x y : Decimal) :
    p.multiplyPower limit n (-x) y = Neg.neg <$> p.multiplyPower limit n x y := by
  induction limit generalizing n x y with
  | zero => rfl
  | succ limit ih =>
    by_cases none : n = 0
    · rw [multiplyPower, multiplyPower, if_pos none, if_pos none]
      rfl
    · rw [multiplyPower_succ limit none, multiplyPower_succ limit none]
      have rest (z : Decimal) :
          (if n / 2 = 0 then .ok (-z) else do
              p.multiplyPower limit (n / 2) (-z) (← p.multiply y y)) =
            Neg.neg <$> (if n / 2 = 0 then .ok z else do
              p.multiplyPower limit (n / 2) z (← p.multiply y y)) := by
        split
        · rfl
        · rw [map_bind]
          exact bind_congr fun square => ih _ _ _
      by_cases odd : n % 2 = 1
      · rw [if_pos odd, if_pos odd, multiply_neg_left, bind_map_left, map_bind]
        exact bind_congr rest
      · rw [if_neg odd, if_neg odd]
        exact rest x

/-- The opposite square shows in the lowest binary digit only. -/
theorem multiplyPower_neg_right (limit n : ℕ) (x y : Decimal) (enough : n < 2 ^ limit) :
    p.multiplyPower limit n x (-y) = signed n <$> p.multiplyPower limit n x y := by
  by_cases none : n = 0
  · subst none
    cases limit <;> rfl
  · obtain ⟨limit, rfl⟩ : ∃ l, limit = l + 1 := by
      cases limit with
      | zero => exact absurd (by simpa using enough) none
      | succ l => exact ⟨l, rfl⟩
    rw [multiplyPower_succ limit none, multiplyPower_succ limit none, multiply_neg_neg]
    by_cases odd : n % 2 = 1
    · have parity : (n : ℤ) % 2 = 1 := by omega
      rw [if_pos odd, if_pos odd, multiply_neg, bind_map_left, map_bind,
        funext (signed_of_odd parity)]
      refine bind_congr fun result => ?_
      split
      · rfl
      · rw [map_bind]
        exact bind_congr fun square => multiplyPower_neg_left _ _ _ _
    · have parity : (n : ℤ) % 2 = 0 := by omega
      rw [if_neg odd, if_neg odd, funext (signed_of_even parity), id_map']

/-- Repeated squaring gives the opposite base the sign of the power. -/
theorem naturalPower_neg (b : Decimal) (n : ℕ) :
    p.naturalPower (-b) n = signed n <$> p.naturalPower b n := by
  unfold naturalPower
  rw [round_neg, bind_map_left, map_bind]
  exact bind_congr fun square => multiplyPower_neg_right _ n _ square Nat.lt_log2_self

/-- And so does the inverted power. -/
theorem integerPower_neg (b : Decimal) (k : ℤ) :
    p.integerPower (-b) k = signed k <$> p.integerPower b k := by
  simp only [integerPower_eq, naturalPower_neg, signed_natAbs, bind_map_left, map_bind]
  refine bind_congr fun power => ?_
  split
  · simp only [divide_signed, round_signed, bind_map_left, map_bind]
  · exact round_signed k power

/-! ## The power -/

/-- The logarithm is that of the size. -/
theorem logarithmOfPower_neg (b e : Decimal) : p.logarithmOfPower (-b) e = p.logarithmOfPower b e := by
  rw [logarithmOfPower, abs_neg_eq, logarithmOfPower]

/-- The sign that is set afterwards is that of a negative base with an odd exponent. -/
theorem set_sign (nonzero : b.isZero = false) (whole : e.value = k) (x : Decimal) :
    (if (-b).isNegative && e.isOdd then -x else x) =
      signed k (if b.isNegative && e.isOdd then -x else x) := by
  rw [isNegative_neg nonzero]
  by_cases odd : k % 2 = 1
  · rw [signed_of_odd odd, (isOdd_iff whole).2 odd]
    cases b.isNegative <;> simp
  · have even : e.isOdd = false := by simpa using mt (isOdd_iff whole).1 odd
    rw [signed_of_even (by omega), even]
    simp

/-- The sign of the base goes to the power, by the parity of the exponent. -/
theorem power_neg_of_nonzero (base : b.value ≠ 0) (whole : e.value = k) :
    p.power (-b) e = signed k <$> p.power b e := by
  have opposite : (-b).value ≠ 0 := by
    rw [value_neg]
    exact neg_ne_zero.2 base
  by_cases none : k = 0
  · subst none
    have vanishes : e.value = 0 := by rw [whole, Int.cast_zero]
    rw [power_of_zero _ _ vanishes, power_of_zero _ _ vanishes]
    rfl
  · by_cases fits : e.adjusted < p.digits ∨ 18 < e.adjusted
    · by_cases short : IsShort k
      · rw [power_of_isShort base whole none short fits,
          power_of_isShort opposite whole none short fits, integerPower_neg]
      · rw [power_of_not_isShort base whole none short fits,
          power_of_not_isShort opposite whole none short fits, logarithmOfPower_neg]
        simp only [map_bind]
        refine bind_congr fun logarithm => bind_congr fun result => ?_
        rw [← round_signed, set_sign (by simpa using mt isZero_iff_value.1 base) whole]
    · -- an exponent of too many digits is refused before the base is looked at
      have refused := squaringExponent_refused whole none (p := p) (by omega) (by omega)
      rw [power_eq base whole none, power_eq opposite whole none, refused]
      rfl

/-- Zero has no negative powers, and its others are zero. -/
theorem power_of_zero_base (base : b.value = 0) (whole : e.value = k) (some : k ≠ 0) :
    p.power b e = if e.isNegative then .error .divisionByZero else .ok .zero := by
  have exponent : ¬e.isZero = true := by
    rw [isZero_iff_value, whole]
    exact_mod_cast some
  unfold power
  rw [if_neg exponent, if_pos (isZero_iff_value.2 base)]
  split <;> rfl

/-- For a number and its opposite a power with an integral exponent, of either sign and any size, is
the same down to the last digit if the exponent is even, and has the opposite sign if it is odd; and
where one of the two fails the other one fails with the same condition. -/
theorem power_neg (p : Precision) (b : Decimal) (whole : e.value = k) :
    (Even k → p.power (-b) e = p.power b e) ∧
      (Odd k → p.power (-b) e = Neg.neg <$> p.power b e) := by
  by_cases base : b.value = 0
  · have zero : -b = b := value_injective (by rw [value_neg, base, neg_zero])
    refine ⟨fun _ => by rw [zero], fun odd => ?_⟩
    rw [zero, power_of_zero_base base whole (by rintro rfl; exact absurd odd (by decide))]
    split
    · rfl
    · exact congrArg Except.ok neg_zero_eq.symm
  · have law := power_neg_of_nonzero (p := p) base whole
    constructor
    · intro even
      rw [law, funext (signed_of_even (Int.even_iff.1 even)), id_map']
    · intro odd
      rw [law, funext (signed_of_odd (Int.odd_iff.1 odd))]

/-- A power beyond sixty-four bits, to twenty digits: it is close to the base of the natural
logarithms. -/
theorem power_neg_compound_interest :
    let b : Decimal := ⟨10 ^ 20 + 1, -20, .inl (by decide)⟩
    Precision.power ⟨20⟩ (-b) (ofInt (10 ^ 20 + 1)) =
      .ok ⟨-27182818284590452354, -19, .inl (by decide)⟩ := by
  intro b
  have power : Precision.power ⟨20⟩ b (ofInt (10 ^ 20 + 1)) =
      .ok ⟨27182818284590452354, -19, .inl (by decide)⟩ := by decide +kernel
  rw [(power_neg ⟨20⟩ b (value_ofInt (10 ^ 20 + 1))).2 (by decide), power]
  rfl

end Calculator.Precision
