import Mathlib.Algebra.Order.Field.Power
import Calculator.Proofs.Precision.TranscendentalLaws

/-!
# The conditions of a power

A power that cannot be represented is too large or too small, and the condition that is reported
should tell which. Repeated squaring and the exponential end at the bound of the power's own side,
but three intermediate results can spoil that: an exponent of more digits than the precision has, the
positive power that a negative exponent inverts, and the logarithm of the power. Apart from these
three the condition is right.
-/

namespace Calculator

/-- A number of this magnitude may be given up for this condition. -/
def Condition.Suits (magnitude : ℚ) : Condition → Prop
  | .overflow => 1 < magnitude
  | .underflow => magnitude < 1
  | _ => False

namespace Precision

namespace Side

variable {s : Side} {p : Precision} {q : ℚ} {k : ℤ} {b e t : Decimal}
  {r : Except Condition Decimal}

/-- The side that an exponent leads to. -/
def raised (s : Side) (k : ℤ) : Side := if k < 0 then s.inverse else s

/-- The other side of the other side is the side itself. -/
theorem inverse_inverse (s : Side) : s.inverse.inverse = s := by
  cases s <;> rfl

/-- A power lies on the side of its base, or on the other one where the exponent is negative. -/
theorem Has.zpow (h : s.Has q) (k : ℤ) : (s.raised k).Has (q ^ k) := by
  unfold raised
  rcases lt_or_ge k 0 with negative | nonneg
  · obtain ⟨n, rfl⟩ := Int.exists_eq_neg_ofNat negative.le
    rw [if_pos negative, zpow_neg, zpow_natCast]
    exact (h.pow n).inv
  · obtain ⟨n, rfl⟩ := Int.eq_ofNat_of_zero_le nonneg
    rw [if_neg (not_lt.2 nonneg), zpow_natCast]
    exact h.pow n

/-! ## Conditions that suit a side -/

/-- The condition of a side suits a number on it. -/
theorem suits (h : s.Has q) (off : |q| ≠ 1) : s.condition.Suits |q| := by
  cases s with
  | above => exact lt_of_le_of_ne h off.symm
  | below => exact lt_of_le_of_ne h.2 off

/-- The condition of the other side does not. -/
theorem not_suits_inverse (h : s.Has q) : ¬s.inverse.condition.Suits |q| := by
  cases s with
  | above => exact not_lt.2 h
  | below => exact not_lt.2 h.2

/-- Every number but zero lies on some side of one. -/
theorem exists_has (nonzero : q ≠ 0) : ∃ s : Side, s.Has q := by
  rcases le_total 1 |q| with large | small
  · exact ⟨.above, large⟩
  · exact ⟨.below, nonzero, small⟩

/-- Powers of one are on both sides, so a computation that keeps to the side does not fail there. -/
theorem failsWith_suits (nonzero : q ≠ 0) (exponent : k ≠ 0)
    (h : ∀ s : Side, s.Has q → FailsWith (· = (s.raised k).condition) r) :
    FailsWith (Condition.Suits |q ^ k|) r := by
  intro c failed
  have off : |q| ≠ 1 := by
    intro one
    have above := h .above one.ge c failed
    have below := h .below ⟨nonzero, one.le⟩ c failed
    rw [above] at below
    unfold raised at below
    split at below <;> cases below
  obtain ⟨s, side⟩ := exists_has nonzero
  rw [h s side c failed]
  refine suits (side.zpow k) ?_
  rw [abs_zpow]
  exact mt (zpow_eq_one_iff_right₀ (abs_nonneg q) off).1 exponent

end Side

variable {p : Precision} {b e t : Decimal} {k : ℤ}

/-! ## Repeated squaring -/

/-- A power fails with the condition of its exact value, if it fails, unless the exponent is negative
and the positive power fails. -/
theorem integerPower_suits_iff (digit : 0 < p.digits) (nonzero : b.value ≠ 0) (exponent : k ≠ 0) :
    FailsWith (Condition.Suits |b.value ^ k|) (p.integerPower b k) ↔
      (k < 0 → ∃ r, p.widened.naturalPower b k.natAbs = .ok r) := by
  have wide := p.widened_pos
  rw [integerPower_eq]
  constructor
  · intro right negative
    obtain ⟨s, side⟩ := Side.exists_has nonzero
    cases power : p.widened.naturalPower b k.natAbs with
    | ok r => exact ⟨r, rfl⟩
    | error c =>
      -- The positive power fails on the side of the base, and the inverted one is on the other.
      have condition := (Side.keeps_naturalPower wide k.natAbs side).failsWith c power
      have suits := right c (by rw [power]; rfl)
      have other := side.zpow k
      rw [Side.raised, if_pos negative] at other
      rw [condition, ← s.inverse_inverse] at suits
      exact absurd suits (Side.not_suits_inverse other)
  · intro within
    refine Side.failsWith_suits nonzero exponent fun s side => ?_
    have natural := Side.keeps_naturalPower wide k.natAbs side
    unfold Side.raised
    split
    · rename_i negative
      obtain ⟨r, power⟩ := within negative
      rw [power]
      exact ((Side.keeps_reciprocal wide (natural.has r power)).bind fun _ h =>
        Side.keeps_round digit h).failsWith
    · rename_i positive
      exact (natural.bind fun _ h => Side.keeps_round digit h).failsWith

/-! ## Logarithm and exponential -/

/-- The logarithm of a power has the sign of the side that the power lies on. -/
theorem logarithmOfPower_hasLog {s : Side} (digit : 0 < p.digits) (h : s.Has b.value)
    (whole : e.value = k) (exponent : k ≠ 0) (value : p.logarithmOfPower b e = .ok t) :
    (s.raised k).HasLog t.value := by
  obtain ⟨l, logarithm, product⟩ := bind_eq_ok.1 value
  have argument : s.Has b.abs.value := by
    rw [Decimal.value_abs]
    exact h.abs
  have sign : s.HasLog (p.lift l).value := by
    rw [value_lift l digit]
    exact (ln_hasLog digit argument logarithm).nearest
  have answer := multiply_answers (p := p) l e digit
  rw [product] at answer
  have factor : (p.lift e).value = nearest p.digits k := by
    rw [value_lift e digit, whole]
  rw [answer.value_eq, factor]
  refine Side.HasLog.nearest ?_
  unfold Side.raised
  split
  · rename_i negative
    have reflected : 0 < nearest p.digits (-k) :=
      nearest_pos digit (by exact_mod_cast neg_pos.2 negative)
    rw [nearest_neg, neg_pos] at reflected
    exact sign.mul_neg reflected
  · exact sign.mul_pos (nearest_pos digit (by exact_mod_cast (by omega : 0 < k)))

/-- The sign does not count. -/
theorem keeps_signed_exp {s : Side} (digit : 0 < p.digits) (h : s.HasLog t.value) (negative : Bool) :
    s.Keeps (do
      let result ← p.widened.exp t
      p.round (if negative then -result else result)) := by
  refine (keeps_exp p.widened_pos h).bind fun result side => ?_
  refine Side.keeps_round digit ?_
  split
  · rw [Decimal.value_neg]
    exact side.neg
  · exact side

/-- Once its logarithm is computed a power meets the bound of its side only. -/
theorem exponential_suits_iff (digit : 0 < p.digits) (nonzero : b.value ≠ 0) (whole : e.value = k)
    (exponent : k ≠ 0) (negative : Bool) :
    FailsWith (Condition.Suits |b.value ^ k|) (do
      let result ← p.widened.exp (← p.widened.logarithmOfPower b e)
      p.round (if negative then -result else result)) ↔
    FailsWith (Condition.Suits |b.value ^ k|) (p.widened.logarithmOfPower b e) := by
  cases logarithm : p.widened.logarithmOfPower b e with
  | error c => exact Iff.rfl
  | ok t =>
    refine iff_of_true (Side.failsWith_suits nonzero exponent fun s side => ?_) (.ok t)
    have sign := logarithmOfPower_hasLog p.widened_pos side whole exponent logarithm
    exact (keeps_signed_exp digit sign negative).failsWith

/-! ## The power -/

/-- A power reports the condition of its value exactly if its exponent is not too long for the
precision, the positive power that a negative exponent of sixty-four bits inverts is within the
bounds, and the logarithm of a power with a longer exponent is not beyond the wrong one. -/
theorem power_suits_iff (digit : 0 < p.digits) (nonzero : b.value ≠ 0) (whole : e.value = k) :
    FailsWith (Condition.Suits |b.value ^ k|) (p.power b e) ↔
      (e.adjusted < p.digits ∨ 18 < e.adjusted) ∧
      (IsShort k → k < 0 → ∃ r, p.widened.naturalPower b k.natAbs = .ok r) ∧
      (¬IsShort k → FailsWith (Condition.Suits |b.value ^ k|) (p.widened.logarithmOfPower b e)) := by
  by_cases none : k = 0
  · subst none
    have vanishes : e.value = 0 := by rw [whole, Int.cast_zero]
    have level : e.adjusted = 0 := by
      rw [Decimal.isZero_iff.1 (Decimal.isZero_iff_value.2 vanishes)]
      decide
    rw [power_of_zero p b vanishes, level]
    exact iff_of_true (.ok _) ⟨.inl (by exact_mod_cast digit),
      fun _ negative => absurd negative (by decide), fun long => absurd (by decide) long⟩
  · rw [power_eq nonzero whole none]
    by_cases fits : e.adjusted < p.digits ∨ 18 < e.adjusted
    · rw [squaringExponent_eq whole fits]
      by_cases short : IsShort k
      · rw [if_pos short]
        simp only [fits, short, true_and, not_true, IsEmpty.forall_iff, and_true, forall_const]
        exact integerPower_suits_iff digit nonzero none
      · rw [if_neg short]
        simp only [fits, short, true_and, IsEmpty.forall_iff, not_false_eq_true, forall_const]
        exact exponential_suits_iff digit nonzero whole none _
    · rw [squaringExponent_refused whole none (by omega) (by omega)]
      exact iff_of_false (fun right => right .invalidOperation rfl) fun conditions =>
        fits conditions.1

/-- The reciprocal of a number that is just within the bounds is below them. -/
theorem power_underflow_suits :
    let b : Decimal := ⟨2, 999999, .inl (by decide)⟩
    working.power b (-1) = .error .underflow ∧
      FailsWith (Condition.Suits |b.value ^ (-1 : ℤ)|) (working.power b (-1)) := by
  intro b
  have nonzero : b.value ≠ 0 := mt Decimal.value_eq_zero_iff.1 (by decide)
  refine ⟨by decide +kernel, (power_suits_iff (k := -1) (by decide) nonzero ?_).2 ⟨.inl ?_, ?_, ?_⟩⟩
  · rw [Decimal.value_neg, Decimal.value_one]
    norm_num
  · decide
  · exact fun _ _ => ⟨b, by decide +kernel⟩
  · exact fun long => absurd (by decide) long

/-- The square overflows before it is inverted, though its reciprocal is small. -/
theorem power_overflow_of_small :
    let b : Decimal := ⟨1, 600000, .inl (by decide)⟩
    b.value ≠ 0 ∧ (-2 : Decimal).value = (-2 : ℤ) ∧
      working.power b (-2) = .error .overflow ∧ ¬1 < |b.value ^ (-2 : ℤ)| := by
  intro b
  have nonzero : b.value ≠ 0 := mt Decimal.value_eq_zero_iff.1 (by decide)
  refine ⟨nonzero, ?_, by decide +kernel, ?_⟩
  · rw [Decimal.value_neg, Decimal.value_ofNat]
    norm_num
  · have large : Side.above.Has b.value := by
      have power : (1 : ℚ) ≤ 10 ^ (600000 : ℤ) := one_le_zpow₀ (by norm_num) (by decide)
      rw [Side.Has, Decimal.value, Int.cast_one, one_mul]
      exact power.trans (le_abs_self _)
    have small := large.zpow (-2)
    rw [Side.raised, if_pos (by decide)] at small
    exact not_lt.2 (And.right small)

end Precision

end Calculator
