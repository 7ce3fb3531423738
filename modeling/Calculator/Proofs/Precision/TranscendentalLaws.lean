import Calculator.Proofs.Precision.TranscendentalAccuracy

/-!
# What is relied on of logarithms and exponentials

The rounded functions take an unrounded result, a coefficient and an exponent, and round it. All that
is relied on of the unrounded results of `lnParts` and `expParts` is here: the side of one that they lie
on, and how close they are to the real functions. Any other way to compute them that keeps these laws
would do.
-/

namespace Calculator.Precision

open Real (log)

variable {p : Precision} {x y : Decimal} {s : Side}

/-- The laws of unrounded logarithms `ln` and exponentials `exp`, each of them a coefficient and the
exponent of its last digit. -/
structure TranscendentalLaws (ln exp : Precision → Decimal → ℤ × ℤ) : Prop where
  /-- A logarithm has the sign that the side of its argument tells. -/
  ln_side {p : Precision} {x : Decimal} {s : Side} (few : x.digits ≤ p.digits) (pos : 0 < x.value)
    (side : s.Has x.value) : s.HasLog ((ln p x).1 * 10 ^ (ln p x).2)
  /-- A logarithm is off by a small part of itself, however small it is. -/
  ln_near {p : Precision} {x : Decimal} (few : x.digits ≤ p.digits) (wide : p.digits ≤ 200)
    (pos : 0 < x.value) (size : |x.adjusted| ≤ 10 ^ 6) (other : x ≠ 1) :
    |((ln p x).1 : ℝ) * 10 ^ (ln p x).2 - log x.value| ≤
      10 ^ (11 - (p.digits + guardPlaces : ℕ) : ℤ) * |log x.value|
  /-- An exponential is on the side that the sign of its argument tells. -/
  exp_side {p : Precision} {x : Decimal} {s : Side} (sign : s.HasLog x.value) :
    s.Has ((exp p x).1 * 10 ^ (exp p x).2)
  /-- An exponential is positive. -/
  exp_pos {p : Precision} {x : Decimal} (wide : p.digits ≤ 200) (size : |x.value| ≤ 10 ^ 7) :
    0 < (exp p x).1
  /-- An exponential is off by a small factor, which its logarithm shows. -/
  exp_near {p : Precision} {x : Decimal} (wide : p.digits ≤ 200) (size : |x.value| ≤ 10 ^ 7) :
    |log ((exp p x).1 * 10 ^ (exp p x).2) - x.value| ≤ 10 ^ (11 - (p.digits + guardPlaces : ℕ) : ℤ)

/-- The series of the model keep to the laws. -/
theorem transcendentalLaws : TranscendentalLaws lnParts expParts where
  ln_side few pos side := (lnParts_hasLog few pos side).mul_pos (Decimal.ten_zpow_pos _)
  ln_near {p x} few wide pos size other := by
    by_cases near : 2 ≤ 3 * x ∧ 3 * x ≤ 4
    · refine lnParts_near_one few wide near fun one => other ?_
      exact Decimal.value_injective (one.trans Decimal.value_one.symm)
    · exact lnParts_far_near few wide pos size near
  exp_side {p} _ _ sign := expParts_has p sign
  exp_pos wide size := (expParts_near wide size).1
  exp_near wide size := (expParts_near wide size).2

/-! ## The sides of the rounded functions -/

/-- A rounded logarithm has the sign that the side of its argument tells. -/
theorem ln_hasLog (digit : 0 < p.digits) (h : s.Has x.value) (value : p.ln x = .ok y) :
    s.HasLog y.value := by
  unfold ln at value
  split at value
  · cases value
  · rename_i positive
    split at value
    · cases value
      rw [Decimal.value_zero]
      exact s.hasLog_zero
    · have wide := p.widened_pos
      have answer := round_answers (p := p) (.ofPartsRounded p.widened.digits
        (p.widened.lnParts (p.widened.lift x)).1 (p.widened.lnParts (p.widened.lift x)).2) digit
      dsimp only at value
      rw [value] at answer
      rw [answer.value_eq, Decimal.value_ofPartsRounded wide]
      refine (transcendentalLaws.ln_side ?_ ?_ ?_).nearest.nearest
      · exact Decimal.digits_roundTo_le x wide
      · rw [value_lift x wide]
        exact nearest_pos wide (Decimal.isPositive_iff_value.1 (by simpa using positive))
      · exact h.lift wide

/-- A rounded exponential keeps to the side that the sign of its argument tells, and fails at the bound
of that side only. -/
theorem keeps_exp (digit : 0 < p.digits) (h : s.HasLog x.value) : s.Keeps (p.exp x) := by
  unfold exp
  split
  · refine .ok ?_
    rw [Decimal.value_one]
    exact s.has_one
  · rename_i nonzero
    rw [Decimal.isZero_iff_value] at nonzero
    split
    · refine ⟨nofun, .error ?_⟩
      cases s with
      | above => rw [if_neg (mt Decimal.isNegative_iff_value.1 (not_lt.2 h))]; rfl
      | below => rw [if_pos (Decimal.isNegative_iff_value.2 (lt_of_le_of_ne h nonzero))]; rfl
    · have wide := p.widened_pos
      dsimp only
      refine Side.keeps_round digit ?_
      rw [Decimal.value_ofPartsRounded wide]
      refine (transcendentalLaws.exp_side ?_).nearest wide
      rw [value_lift x wide]
      exact h.nearest

end Calculator.Precision
