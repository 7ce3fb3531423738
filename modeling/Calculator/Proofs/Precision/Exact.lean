import Calculator.Proofs.Precision.Operations

/-!
# Results that need no rounding

A precision holds the numbers that have no more digits than it has and a leading digit within the
exponent bounds. An exact result of few digits is only checked for its size, so it is answered when
the precision holds it, and the bound that it exceeds is answered otherwise.
-/

namespace Calculator.Precision

/-- The number needs no rounding and is within the bounds. -/
structure Holds (p : Precision) (x : Decimal) : Prop where
  few : x.digits ≤ p.digits
  inRange : InRange x.value

variable {p : Precision} {x y z : Decimal} {r : Except Condition Decimal}

/-- The bounds are told by the place of the first digit. -/
theorem inRange_value_iff : InRange x.value ↔
    x.isZero = true ∨ -exponentBound ≤ x.adjusted ∧ x.adjusted ≤ exponentBound := by
  by_cases vanishes : x.value = 0
  · exact iff_of_true (.inl vanishes) (.inl (Decimal.isZero_iff_value.2 vanishes))
  · rw [InRange, Decimal.isZero_iff_value,
      Decimal.adjusted_eq_log (mt Decimal.value_eq_zero_iff.2 vanishes)]

/-- A number is held if it has few digits and is within the bounds. -/
theorem holds_iff : p.Holds x ↔ x.digits ≤ p.digits ∧
    (x.isZero = true ∨ -exponentBound ≤ x.adjusted ∧ x.adjusted ≤ exponentBound) := by
  rw [← inRange_value_iff]
  exact ⟨fun h => ⟨h.few, h.inRange⟩, fun h => ⟨h.1, h.2⟩⟩

instance (p : Precision) (x : Decimal) : Decidable (p.Holds x) := decidable_of_iff' _ holds_iff

/-- What is held is held with more digits. -/
theorem Holds.widened (h : p.Holds x) : p.widened.Holds x :=
  ⟨h.few.trans (Nat.le_add_right _ _), h.inRange⟩

/-- A result that is held is answered as it is. -/
theorem Answers.eq_ok (digit : 0 < p.digits) (h : p.Holds x)
    (answer : Answers p.digits x.value r) : r = .ok x := by
  have kept := Decimal.nearest_value h.few digit
  exact answer.unique digit (.value x kept.symm (kept.symm ▸ h.inRange))

/-- A coefficient with few digits is only checked. -/
theorem roundParts_of_few {c e : ℤ} (digit : 0 < p.digits) (few : c.natAbs < 10 ^ p.digits) :
    p.roundParts c e = check (.ofParts c e) := by
  have fits := (digitCount_le_iff digit).2 few
  unfold roundParts Decimal.ofPartsRounded
  dsimp only
  rw [if_pos (.inr (Nat.sub_eq_zero_of_le fits))]

/-- What is held is not rounded. -/
theorem round_of_holds (digit : 0 < p.digits) (h : p.Holds x) : p.round x = .ok x :=
  (round_answers x digit).eq_ok digit h

/-- A product that the precision holds is formed as it is. -/
theorem multiply_of_holds (digit : 0 < p.digits) (hx : p.Holds x) (hy : p.Holds y) (hz : p.Holds z)
    (product : x.value * y.value = z.value) : p.multiply x y = .ok z := by
  have answer := multiply_answers (p := p) x y digit
  have left : p.lift x = x := Decimal.roundTo_eq_self hx.few
  have right : p.lift y = y := Decimal.roundTo_eq_self hy.few
  rw [left, right, product] at answer
  exact answer.eq_ok digit hz

end Calculator.Precision
