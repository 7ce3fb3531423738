import Calculator.Proofs.Real.Integral

/-!
# Working values as native integers

A working value without a fraction is an integer. It is read as a native one where it has at most
nineteen digits and lies within the bounds of the type. The bounds are far below nineteen digits, so
what they admit is never refused for its length: a conversion gives the value itself or is
impossible.
-/

namespace Calculator.Decimal

open Precision (working)

variable {x : Decimal} {n : ℤ}

/-! ## Integers of nineteen digits -/

/-- Up to nineteen digits an integer is read. -/
theorem adjusted_le_eighteen_iff (whole : x.value = n) : x.adjusted ≤ 18 ↔ |n| < 10 ^ 19 := by
  rcases eq_or_ne n 0 with rfl | nonzero
  · obtain rfl : x = zero := value_injective (by rw [whole, value_zero, Int.cast_zero])
    exact iff_of_true (by decide) (by decide)
  · rw [← adjusted_lt_natCast_iff whole nonzero]
    omega

/-- Longer integers are refused before they are read. -/
theorem IsWorking.toWhole_eq (hx : x.IsWorking) (whole : x.value = n) :
    x.toWhole = if |n| < 10 ^ 19 then .ok n else .error .conversionImpossible := by
  obtain ⟨f, fraction, none⟩ := hx.exists_fractional
  have few := adjusted_le_eighteen_iff whole
  unfold toWhole
  rw [fraction, hx.lift_eq]
  refine (if_neg (by simp [none.2 ⟨n, whole⟩])).trans ?_
  by_cases short : |n| < 10 ^ 19
  · rw [if_pos short, tenPow_eq]
    refine (if_neg (not_lt.2 (few.2 short))).trans ?_
    exact_mod_cast congrArg Except.ok (coefficient_mul_pow whole)
  · rw [if_neg short]
    exact if_pos (not_le.1 (mt few.1 short))

/-- Fractions are refused. -/
theorem IsWorking.toWhole_of_fraction (hx : x.IsWorking) (fraction : ¬∃ n : ℤ, x.value = n) :
    x.toWhole = .error .conversionImpossible := by
  obtain ⟨f, rest, none⟩ := hx.exists_fractional
  have some : f.isZero = false := by
    rw [← Bool.not_eq_true, none]
    exact fraction
  unfold toWhole
  rw [rest]
  exact if_pos (by simp [some])

/-! ## The bounds of a type -/

/-- The integer that a number is, as a value of a type with bounds. -/
def narrow {α : Type} (x : Decimal) (fits : ℤ → Prop) [DecidablePred fits] (convert : ℤ → α) :
    Except ArithmeticError α := do
  let n ← x.toWhole
  if fits n then return convert n
  throw .conversionImpossible

/-- The signed conversion narrows to thirty-two bits with a sign. -/
theorem toInt_eq_narrow (x : Decimal) :
    x.toInt = x.narrow (fun n => -2147483648 ≤ n ∧ n ≤ 2147483647) id := rfl

/-- The unsigned one narrows to thirty-two bits. -/
theorem toUInt_eq_narrow (x : Decimal) :
    x.toUInt = x.narrow (fun n => 0 ≤ n ∧ n ≤ 4294967295) Int.toNat := rfl

section

variable {α : Type} {fits : ℤ → Prop} [DecidablePred fits] {convert : ℤ → α}

/-- Bounds within nineteen digits decide alone. -/
theorem IsWorking.narrow_eq (hx : x.IsWorking) (whole : x.value = n)
    (short : fits n → |n| < 10 ^ 19) :
    x.narrow fits convert = if fits n then .ok (convert n) else .error .conversionImpossible := by
  unfold narrow
  rw [hx.toWhole_eq whole]
  by_cases few : |n| < 10 ^ 19
  · rw [if_pos few]
    rfl
  · rw [if_neg few, if_neg (mt short few)]
    rfl

/-- A fraction fits no range. -/
theorem IsWorking.narrow_of_fraction (hx : x.IsWorking) (fraction : ¬∃ n : ℤ, x.value = n) :
    x.narrow fits convert = .error .conversionImpossible := by
  unfold narrow
  rw [hx.toWhole_of_fraction fraction]
  rfl

/-- An answer is an integer in range, if the range has fewer than twenty digits. -/
theorem IsWorking.narrow_eq_ok_iff (hx : x.IsWorking) (short : ∀ n, fits n → |n| < 10 ^ 19)
    {a : α} : x.narrow fits convert = .ok a ↔ ∃ n : ℤ, x.value = n ∧ fits n ∧ convert n = a := by
  constructor
  · intro answer
    by_cases whole : ∃ n : ℤ, x.value = n
    · obtain ⟨n, whole⟩ := whole
      rw [hx.narrow_eq whole (short n)] at answer
      split at answer
      · rename_i within
        exact ⟨n, whole, within, Except.ok.inj answer⟩
      · cases answer
    · rw [hx.narrow_of_fraction whole] at answer
      cases answer
  · rintro ⟨n, whole, within, rfl⟩
    rw [hx.narrow_eq whole (short n), if_pos within]

/-- Everything else is refused. -/
theorem IsWorking.narrow_eq_error (hx : x.IsWorking) (short : ∀ n, fits n → |n| < 10 ^ 19)
    (outside : ¬∃ n : ℤ, x.value = n ∧ fits n) :
    x.narrow fits convert = .error .conversionImpossible := by
  by_cases whole : ∃ n : ℤ, x.value = n
  · obtain ⟨n, whole⟩ := whole
    rw [hx.narrow_eq whole (short n), if_neg fun within => outside ⟨n, whole, within⟩]
  · exact hx.narrow_of_fraction whole

end

/-- The bounds of thirty-two bits have ten digits. -/
theorem abs_lt_of_bounds (low : -2147483648 ≤ n) (high : n ≤ 4294967295) : |n| < 10 ^ 19 := by
  rw [abs_lt]
  constructor <;> omega

theorem IsWorking.toUInt_eq (hx : x.IsWorking) (whole : x.value = n) :
    x.toUInt = if 0 ≤ n ∧ n ≤ 4294967295 then .ok n.toNat else .error .conversionImpossible :=
  hx.narrow_eq whole fun fits => abs_lt_of_bounds (by omega) fits.2

/-- A conversion to a native integer answers an integer exactly when the number is that integer and
it is within the bounds of the type. In every other case it is impossible, and fails as that. -/
theorem native_integers_exact (hx : x.IsWorking) :
    (∀ n : ℤ, x.toInt = .ok n ↔ x.value = n ∧ -2 ^ 31 ≤ n ∧ n < 2 ^ 31) ∧
    (∀ n : ℕ, x.toUInt = .ok n ↔ x.value = n ∧ n < 2 ^ 32) ∧
    ((¬∃ n : ℤ, x.value = n ∧ -2 ^ 31 ≤ n ∧ n < 2 ^ 31) →
      x.toInt = .error .conversionImpossible) ∧
    ((¬∃ n : ℕ, x.value = n ∧ n < 2 ^ 32) → x.toUInt = .error .conversionImpossible) := by
  have signedShort : ∀ n : ℤ, -2147483648 ≤ n ∧ n ≤ 2147483647 → |n| < 10 ^ 19 :=
    fun n fits => abs_lt_of_bounds fits.1 (by omega)
  have unsignedShort : ∀ n : ℤ, 0 ≤ n ∧ n ≤ 4294967295 → |n| < 10 ^ 19 :=
    fun n fits => abs_lt_of_bounds (by omega) fits.2
  refine ⟨fun n => ?_, fun n => ?_, fun outside => ?_, fun outside => ?_⟩
  · rw [toInt_eq_narrow, hx.narrow_eq_ok_iff signedShort]
    constructor
    · rintro ⟨m, whole, ⟨low, high⟩, rfl⟩
      exact ⟨whole, low, Int.lt_add_one_of_le high⟩
    · rintro ⟨whole, low, high⟩
      exact ⟨n, whole, ⟨low, Int.le_of_lt_add_one high⟩, rfl⟩
  · rw [toUInt_eq_narrow, hx.narrow_eq_ok_iff unsignedShort]
    constructor
    · rintro ⟨m, whole, ⟨low, high⟩, rfl⟩
      obtain ⟨k, rfl⟩ := Int.eq_ofNat_of_zero_le low
      rw [Int.toNat_natCast]
      exact ⟨by exact_mod_cast whole, by omega⟩
    · rintro ⟨whole, high⟩
      exact ⟨n, by exact_mod_cast whole, by omega, Int.toNat_natCast n⟩
  · rw [toInt_eq_narrow]
    refine hx.narrow_eq_error signedShort ?_
    rintro ⟨n, whole, low, high⟩
    exact outside ⟨n, whole, low, Int.lt_add_one_of_le high⟩
  · rw [toUInt_eq_narrow]
    refine hx.narrow_eq_error unsignedShort ?_
    rintro ⟨n, whole, low, high⟩
    obtain ⟨k, rfl⟩ := Int.eq_ofNat_of_zero_le low
    exact outside ⟨k, by exact_mod_cast whole, by omega⟩

/-- The least signed integer is no unsigned one, and a number of nineteen digits that is beyond
sixty-four bits is neither. -/
theorem native_integers_exact_of_bounds :
    (-2147483648 : Decimal).IsWorking ∧ (-2147483648 : Decimal).toInt = .ok (-2147483648) ∧
      (-2147483648 : Decimal).toUInt = .error .conversionImpossible ∧
      (9223372036854775808 : Decimal).IsWorking ∧
      (9223372036854775808 : Decimal).toInt = .error .conversionImpossible := by
  have least : (-2147483648 : Decimal).IsWorking := by decide
  have long : (9223372036854775808 : Decimal).IsWorking := by decide
  obtain ⟨signed, -, -, unsigned⟩ := native_integers_exact least
  obtain ⟨-, -, beyond, -⟩ := native_integers_exact long
  refine ⟨least, (signed _).2 ⟨?_, by decide⟩, unsigned ?_, long, beyond ?_⟩
  · rw [value_neg, value_ofNat]
    norm_num
  · rintro ⟨n, same, -⟩
    rw [value_neg, value_ofNat] at same
    have nonneg : (0 : ℚ) ≤ n := Nat.cast_nonneg n
    norm_num at same
    linarith
  · rintro ⟨n, same, -, high⟩
    rw [value_ofNat] at same
    have large : n = 9223372036854775808 := by exact_mod_cast same.symm
    omega

end Calculator.Decimal
