import Mathlib.Algebra.Order.Round
import Mathlib.Data.Nat.Cast.Order.Field
import Mathlib.Data.Sign.Basic
import Mathlib.Tactic.FieldSimp
import Calculator.Proofs.Decimal.Value

/-!
# Rounding as a function of rational numbers

`nearest d` takes a rational number to the nearest one with `d` significant digits, a half going
away from zero. It commutes with the sign, keeps the order of magnitudes, and leaves alone what has
no more than `d` digits. A decimal rounds to the `nearest` of its value.
-/

namespace Calculator

open Decimal (ten_zpow_pos ten_zpow_add ten_zpow_eq_mul)

/-- The exponent of the last digit that is kept of `d` significant digits. -/
def place (d : ℕ) (q : ℚ) : ℤ := Int.log 10 |q| - d + 1

/-- The number with `d` significant digits that is nearest to `q`, a half going away from zero. -/
def nearest (d : ℕ) (q : ℚ) : ℚ :=
  SignType.sign q * (round (|q| / 10 ^ place d q) * 10 ^ place d q)

variable {d : ℕ} {q r : ℚ}

@[simp] theorem nearest_zero : nearest d 0 = 0 := by simp [nearest]

/-- The place of rounding depends on the size only. -/
theorem place_neg : place d (-q) = place d q := by simp [place]

/-- Halves go away from zero on both sides. -/
theorem nearest_neg : nearest d (-q) = -nearest d q := by
  simp [nearest, place_neg, Left.sign_neg]

/-- Of a positive number, rounding is that of Mathlib at the place of rounding. -/
theorem nearest_of_pos (pos : 0 < q) :
    nearest d q = round (q / 10 ^ place d q) * 10 ^ place d q := by
  rw [nearest, sign_pos pos, abs_of_pos pos]
  simp

theorem round_mono {x y : ℚ} (h : x ≤ y) : round x ≤ round y := by
  rw [round_eq, round_eq]
  exact Int.floor_mono (by linarith)

/-- Rounding does not change the sign. -/
theorem nearest_nonneg (h : 0 ≤ q) : 0 ≤ nearest d q := by
  rcases h.eq_or_lt with rfl | pos
  · simp
  · have unit := ten_zpow_pos (place d q)
    have whole : 0 ≤ round (q / 10 ^ place d q) := by
      rw [← round_zero (α := ℚ)]
      exact round_mono (by positivity)
    rw [nearest_of_pos pos]
    exact mul_nonneg (by exact_mod_cast whole) unit.le

/-- A rounded number is off by half a unit of its last place. -/
theorem abs_nearest_sub_le_place (pos : 0 < q) : |nearest d q - q| ≤ 1 / 2 * 10 ^ place d q := by
  have unit := ten_zpow_pos (place d q)
  have scaled : nearest d q - q =
      -((q / 10 ^ place d q - round (q / 10 ^ place d q)) * 10 ^ place d q) := by
    rw [nearest_of_pos pos, sub_mul, div_mul_cancel₀ _ unit.ne']
    ring
  rw [scaled, abs_neg, abs_mul, abs_of_pos unit]
  exact mul_le_mul_of_nonneg_right (abs_sub_round _) unit.le

theorem abs_nearest : |nearest d q| = nearest d |q| := by
  rcases le_total 0 q with h | h
  · rw [abs_of_nonneg h, abs_of_nonneg (nearest_nonneg h)]
  · have := nearest_nonneg (d := d) (neg_nonneg.2 h)
    rw [abs_of_nonpos h, nearest_neg, abs_of_nonpos (by rw [nearest_neg] at this; linarith)]

/-! ## What has few digits already -/

/-- A multiple of the last place is kept. -/
theorem nearest_of_multiple {c e : ℤ} (fine : place d (c * 10 ^ e) ≤ e) :
    nearest d (c * 10 ^ e) = c * 10 ^ e := by
  have unit := ten_zpow_pos e
  have small := ten_zpow_pos (place d (c * 10 ^ e))
  have whole : |(c : ℚ) * 10 ^ e| / 10 ^ place d (c * 10 ^ e) =
      ((|c| * 10 ^ (e - place d (c * 10 ^ e)).toNat : ℤ) : ℚ) := by
    rw [div_eq_iff small.ne', abs_mul, abs_of_pos unit]
    nth_rewrite 1 [ten_zpow_eq_mul fine]
    push_cast
    ring
  rw [nearest, whole, round_intCast, ← whole, div_mul_cancel₀ _ small.ne', sign_mul_abs]

/-- A number with few digits ends behind the place of rounding or at it. -/
theorem place_le {c e : ℤ} (few : c.natAbs < 10 ^ d) (pos : 0 < d) (nonzero : c ≠ 0) :
    place d (c * 10 ^ e) ≤ e := by
  have := (digitCount_le_iff pos).2 few
  rw [place, Decimal.log_abs nonzero]
  omega

/-- So a number with few digits is its own rounding. -/
theorem nearest_of_few {c e : ℤ} (few : c.natAbs < 10 ^ d) (pos : 0 < d) :
    nearest d (c * 10 ^ e) = c * 10 ^ e := by
  by_cases vanishes : c = 0
  · simp [vanishes]
  · exact nearest_of_multiple (place_le few pos vanishes)

theorem nearest_natCast_mul {k : ℕ} {e : ℤ} (few : k < 10 ^ d) (pos : 0 < d) :
    nearest d ((k : ℚ) * 10 ^ e) = k * 10 ^ e := by
  exact_mod_cast nearest_of_few (c := k) (e := e) (by simpa using few) pos

/-! ## Order -/

/-- The front digit of a positive number does not get lower. -/
theorem zpow_log_le_nearest (pos : 0 < q) (digit : 0 < d) :
    (10 : ℚ) ^ Int.log 10 q ≤ nearest d q := by
  have unit := ten_zpow_pos (place d q)
  have below : (10 : ℚ) ^ Int.log 10 q ≤ q := by exact_mod_cast Int.zpow_log_le_self (by decide) pos
  have split : (10 : ℚ) ^ Int.log 10 q = ((10 ^ (d - 1) : ℤ) : ℚ) * 10 ^ place d q := by
    rw [ten_zpow_eq_mul (show place d q ≤ Int.log 10 q by rw [place, abs_of_pos pos]; omega)]
    rw [place, abs_of_pos pos]
    congr 4
    omega
  have count : (10 ^ (d - 1) : ℤ) ≤ round (q / 10 ^ place d q) := by
    rw [← round_intCast (α := ℚ) (10 ^ (d - 1))]
    exact round_mono ((le_div_iff₀ unit).2 (split ▸ below))
  rw [nearest_of_pos pos, split]
  exact mul_le_mul_of_nonneg_right (by exact_mod_cast count) unit.le

/-- A positive number rounds up to the next power of ten at most. -/
theorem nearest_le_zpow_succ (pos : 0 < q) : nearest d q ≤ 10 ^ (Int.log 10 q + 1) := by
  have unit := ten_zpow_pos (place d q)
  have above : q ≤ 10 ^ (Int.log 10 q + 1) := by
    exact_mod_cast (Int.lt_zpow_succ_log_self (by decide : 1 < 10) q).le
  have split : (10 : ℚ) ^ (Int.log 10 q + 1) = ((10 ^ d : ℤ) : ℚ) * 10 ^ place d q := by
    rw [ten_zpow_eq_mul (show place d q ≤ Int.log 10 q + 1 by rw [place, abs_of_pos pos]; omega)]
    rw [place, abs_of_pos pos]
    congr 4
    omega
  have count : round (q / 10 ^ place d q) ≤ (10 ^ d : ℤ) := by
    rw [← round_intCast (α := ℚ) (10 ^ d)]
    exact round_mono ((div_le_iff₀ unit).2 (split ▸ above))
  rw [nearest_of_pos pos, split]
  exact mul_le_mul_of_nonneg_right (by exact_mod_cast count) unit.le

/-- Only zero is rounded to zero. -/
theorem nearest_eq_zero_iff (digit : 0 < d) : nearest d q = 0 ↔ q = 0 := by
  constructor
  · intro vanishes
    by_contra nonzero
    have front := zpow_log_le_nearest (abs_pos.2 nonzero) digit
    rw [← abs_nearest, vanishes, abs_zero] at front
    exact absurd front (not_le.2 (ten_zpow_pos _))
  · rintro rfl
    exact nearest_zero

theorem nearest_pos (digit : 0 < d) (pos : 0 < q) : 0 < nearest d q :=
  (ten_zpow_pos _).trans_le (zpow_log_le_nearest pos digit)

/-- Rounding is monotonic, also where the place of rounding moves. -/
theorem nearest_mono_of_pos (digit : 0 < d) (pos : 0 < q) (h : q ≤ r) :
    nearest d q ≤ nearest d r := by
  have rpos : 0 < r := pos.trans_le h
  have unit := ten_zpow_pos (place d q)
  rcases (Int.log_mono_right (b := 10) pos h).eq_or_lt with same | less
  · have unit_eq : place d r = place d q := by
      rw [place, place, abs_of_pos pos, abs_of_pos rpos, same]
    rw [nearest_of_pos pos, nearest_of_pos rpos, unit_eq]
    refine mul_le_mul_of_nonneg_right ?_ unit.le
    exact_mod_cast round_mono (div_le_div_of_nonneg_right h unit.le)
  · calc nearest d q ≤ 10 ^ (Int.log 10 q + 1) := nearest_le_zpow_succ pos
      _ ≤ 10 ^ Int.log 10 r := zpow_le_zpow_right₀ (by norm_num) less
      _ ≤ nearest d r := zpow_log_le_nearest rpos digit

/-- Rounding keeps the order of magnitudes. -/
theorem abs_nearest_mono (digit : 0 < d) (h : |q| ≤ |r|) : |nearest d q| ≤ |nearest d r| := by
  by_cases vanishes : q = 0
  · simp [vanishes]
  · rw [abs_nearest, abs_nearest]
    exact nearest_mono_of_pos digit (abs_pos.2 vanishes) h

theorem nearest_one (digit : 0 < d) : nearest d 1 = 1 := by
  simpa using nearest_of_few (c := 1) (e := 0) (Nat.one_lt_pow (by omega) (by decide)) digit

/-- What is at most one is at most one when it is rounded. -/
theorem abs_nearest_le_one (digit : 0 < d) (h : |q| ≤ 1) : |nearest d q| ≤ 1 := by
  have bound := abs_nearest_mono (d := d) digit (h.trans_eq abs_one.symm)
  rwa [nearest_one digit, abs_one] at bound

/-- Rounding does not go below one. -/
theorem one_le_abs_nearest (digit : 0 < d) (h : 1 ≤ |q|) : 1 ≤ |nearest d q| := by
  have bound := abs_nearest_mono (d := d) digit (abs_one.trans_le h)
  rwa [nearest_one digit, abs_one] at bound

theorem nearest_nonpos (h : q ≤ 0) : nearest d q ≤ 0 := by
  have reflected := nearest_nonneg (d := d) (neg_nonneg.2 h)
  rwa [nearest_neg, neg_nonneg] at reflected

/-- Rounding a fraction to an integer. -/
theorem round_div_natCast (n m : ℕ) (pos : 0 < m) :
    round ((n : ℚ) / m) = (roundDiv n m : ℤ) := by
  have sum : (n : ℚ) / m + 1 / 2 = ((2 * n + m : ℕ) : ℚ) / (2 * m : ℕ) := by
    have : (m : ℚ) ≠ 0 := by positivity
    push_cast
    field_simp
  rw [round_eq, sum, Rat.floor_natCast_div_natCast, roundDiv, Int.natCast_ediv]

/-- A quotient can be cut off before it is rounded to a multiple of an even number. -/
theorem roundDiv_div {n m u : ℕ} (even : ∃ h, u = 2 * h) (pos : 0 < m) :
    roundDiv (n / m) u = roundDiv n (m * u) := by
  obtain ⟨h, rfl⟩ := even
  have cut : 2 * (n / m) + 2 * h = 2 * ((n + m * h) / m) := by
    rw [Nat.add_mul_div_left _ _ pos]
    omega
  have uncut : 2 * n + m * (2 * h) = 2 * (n + m * h) := by ring
  rw [roundDiv, roundDiv, cut, uncut, Nat.mul_div_mul_left _ _ (by decide),
    Nat.mul_div_mul_left _ _ (by decide), Nat.div_div_eq_div_mul]

/-! ## Scaling and cutting off -/

/-- Moving the point moves the place of rounding. -/
theorem place_mul_zpow (nonzero : q ≠ 0) (e : ℤ) : place d (q * 10 ^ e) = place d q + e := by
  have unit := ten_zpow_pos e
  have pos := abs_pos.2 nonzero
  have low : (10 : ℚ) ^ Int.log 10 |q| ≤ |q| := by
    exact_mod_cast Int.zpow_log_le_self (by decide : 1 < 10) pos
  have high : |q| < (10 : ℚ) ^ (Int.log 10 |q| + 1) := by
    exact_mod_cast Int.lt_zpow_succ_log_self (by decide : 1 < 10) |q|
  have log : Int.log 10 |q * 10 ^ e| = Int.log 10 |q| + e := by
    rw [abs_mul, abs_of_pos unit]
    refine Decimal.log_eq ?_ ?_
    · rw [ten_zpow_add]
      exact mul_le_mul_of_nonneg_right low unit.le
    · rw [add_right_comm, ten_zpow_add]
      exact mul_lt_mul_of_pos_right high unit
  rw [place, place, log]
  ring

/-- Moving the point commutes with rounding. -/
theorem nearest_mul_zpow (e : ℤ) : nearest d (q * 10 ^ e) = nearest d q * 10 ^ e := by
  by_cases vanishes : q = 0
  · simp [vanishes]
  · have unit := ten_zpow_pos e
    have small := ten_zpow_pos (place d q)
    have ratio : |q * 10 ^ e| / 10 ^ (place d q + e) = |q| / 10 ^ place d q := by
      rw [abs_mul, abs_of_pos unit, ten_zpow_add]
      field_simp
    rw [nearest, nearest, place_mul_zpow vanishes, ratio, sign_mul, sign_pos unit, mul_one,
      ten_zpow_add]
    ring

/-- What a number has behind the point does not count when `d` digits and one more are before it:
the place of rounding is a multiple of ten, and the half of it is whole. -/
theorem nearest_natFloor {n m : ℕ} (long : 10 ^ d * m ≤ n) (pos : 0 < m) :
    nearest d ((n / m : ℕ) : ℚ) = nearest d ((n : ℚ) / m) := by
  have whole : 10 ^ d ≤ n / m := (Nat.le_div_iff_mul_le pos).2 long
  have power : 0 < 10 ^ d := Nat.pow_pos (by decide)
  have quotient_pos : (0 : ℚ) < (n / m : ℕ) := by exact_mod_cast power.trans_le whole
  have below : ((n / m : ℕ) : ℚ) ≤ n / m := Nat.cast_div_le
  have same : Int.log 10 ((n : ℚ) / m) = Int.log 10 ((n / m : ℕ) : ℚ) := by
    refine Decimal.log_eq ?_ ?_
    · exact le_trans (by exact_mod_cast Int.zpow_log_le_self (by decide) quotient_pos) below
    · rw [Int.log_natCast, div_lt_iff₀ (by exact_mod_cast pos)]
      have above : n / m < 10 ^ (Nat.log 10 (n / m) + 1) :=
        Nat.lt_pow_succ_log_self (by decide) _
      exact_mod_cast (Nat.div_lt_iff_lt_mul pos).1 above
  have place_eq : place d ((n : ℚ) / m) = place d ((n / m : ℕ) : ℚ) := by
    rw [place, place, abs_of_pos (quotient_pos.trans_le below), abs_of_pos quotient_pos, same]
  obtain ⟨k, unit⟩ : ∃ k : ℕ, place d ((n / m : ℕ) : ℚ) = (k + 1 : ℕ) := by
    have : d ≤ Nat.log 10 (n / m) := Nat.le_log_of_pow_le (by decide) whole
    refine ⟨Nat.log 10 (n / m) - d, ?_⟩
    rw [place, abs_of_pos quotient_pos, Int.log_natCast]
    omega
  rw [nearest_of_pos quotient_pos, nearest_of_pos (quotient_pos.trans_le below), place_eq, unit,
    zpow_natCast]
  congr 2
  have cut : ((n / m : ℕ) : ℚ) / 10 ^ (k + 1) = ((n / m : ℕ) : ℚ) / (10 ^ (k + 1) : ℕ) := by
    push_cast
    rfl
  have uncut : (n : ℚ) / m / 10 ^ (k + 1) = (n : ℚ) / (m * 10 ^ (k + 1) : ℕ) := by
    push_cast
    rw [div_div]
  rw [cut, uncut, round_div_natCast _ _ (by positivity), round_div_natCast _ _ (by positivity)]
  congr 1
  exact roundDiv_div (⟨5 * 10 ^ k, by rw [pow_succ]; ring⟩) pos

/-- Nothing of a quotient that is cut off toward zero is missed. -/
theorem nearest_tdiv {a b : ℤ} (long : 10 ^ d * b.natAbs ≤ a.natAbs)
    (nonzero : b ≠ 0) : nearest d (a.tdiv b : ℚ) = nearest d ((a : ℚ) / b) := by
  obtain ⟨n, rfl | rfl⟩ := a.eq_nat_or_neg <;> obtain ⟨m, rfl | rfl⟩ := b.eq_nat_or_neg
  all_goals
    simp only [Int.natAbs_neg, Int.natAbs_natCast, ne_eq, neg_eq_zero, Int.natCast_eq_zero]
      at long nonzero
    have cut := nearest_natFloor long (Nat.pos_of_ne_zero nonzero)
    have quotient : (n : ℤ).tdiv m = (n / m : ℕ) := (Int.ofNat_tdiv n m).symm
    simp only [Int.neg_tdiv, Int.tdiv_neg, quotient, Int.cast_neg, Int.cast_natCast, neg_div,
      div_neg, nearest_neg, neg_neg, cut]

/-! ## Rounded decimals -/

namespace Decimal

/-- A decimal is rounded as its value is. -/
theorem value_ofPartsRounded {c e : ℤ} (digit : 0 < d) :
    (ofPartsRounded d c e).value = nearest d (c * 10 ^ e) := by
  unfold ofPartsRounded
  dsimp only
  split
  · rename_i fits
    have few : c.natAbs < 10 ^ d := (digitCount_le_iff digit).1 (by omega)
    rw [value_ofParts, nearest_of_few few digit]
  · rename_i long
    have nonzero : c ≠ 0 := by
      rintro rfl
      have : digitCount (0 : ℤ).natAbs = 1 := by decide
      omega
    have unit := ten_zpow_pos e
    have place_eq : place d (c * 10 ^ e) = e + (digitCount c.natAbs - d : ℕ) := by
      rw [place, log_abs nonzero]
      omega
    have scaled : |(c : ℚ) * 10 ^ e| / 10 ^ (e + (digitCount c.natAbs - d : ℕ)) =
        (c.natAbs : ℚ) / (10 ^ (digitCount c.natAbs - d) : ℕ) := by
      rw [abs_mul, abs_of_pos unit, ten_zpow_add, zpow_natCast, ← Int.cast_abs,
        Int.abs_eq_natAbs, Int.cast_natCast]
      push_cast
      field_simp
    have sign_eq : (SignType.sign ((c : ℚ) * 10 ^ e) : ℚ) = (c.sign : ℚ) := by
      rw [sign_mul, sign_pos unit, mul_one, sign_intCast, Int.sign_eq_sign,
        SignType.intCast_cast]
    rw [value_ofParts, nearest, place_eq, scaled, round_div_natCast _ _ (Nat.pow_pos (by decide)),
      sign_eq, tenPow_eq]
    push_cast
    ring

theorem value_roundTo (x : Decimal) (digit : 0 < d) : (x.roundTo d).value = nearest d x.value :=
  value_ofPartsRounded digit

/-- Stripping zeros leaves at most as many digits as there were; a power of ten is left with one. -/
theorem digits_ofParts_le {c e : ℤ} (few : c.natAbs ≤ 10 ^ d) (digit : 0 < d) :
    (ofParts c e).digits ≤ d := by
  rw [digits_le_iff digit]
  unfold ofParts
  split
  · exact Nat.pow_pos (by decide)
  · rename_i nonzero
    have strip := dropZeros_mul c.natAbs.log2 c.natAbs
    have last := dropZeros_mod (n := c.natAbs) (by omega) (Nat.le_refl _)
    have le : (dropZeros c.natAbs.log2 c.natAbs).1 ≤ c.natAbs :=
      Nat.le_of_dvd (by omega) ⟨_, strip.symm⟩
    have power : 10 ^ d % 10 = 0 := by
      obtain ⟨k, rfl⟩ : ∃ k, d = k + 1 := ⟨d - 1, by omega⟩
      rw [pow_succ, Nat.mul_mod_left]
    have coefficient_eq : (c.sign * ((dropZeros c.natAbs.log2 c.natAbs).1 : ℤ)).natAbs =
        (dropZeros c.natAbs.log2 c.natAbs).1 := by
      rw [Int.natAbs_mul, Int.natAbs_sign_of_ne_zero nonzero, one_mul, Int.natAbs_natCast]
    simp only [coefficient_eq]
    by_contra reaches
    have same : (dropZeros c.natAbs.log2 c.natAbs).1 = 10 ^ d := by omega
    exact last (same ▸ power)

/-- Rounding off digits may reach the next power of ten, and not pass it. -/
theorem roundDiv_le {n k : ℕ} (digit : 0 < d) (h : digitCount n ≤ d + k) :
    roundDiv n (10 ^ k) ≤ 10 ^ d := by
  have bound : n < 10 ^ (d + k) := (digitCount_le_iff (by omega)).1 h
  have pos : 0 < 10 ^ k := Nat.pow_pos (by decide)
  have split : (10 ^ d).succ * (2 * 10 ^ k) = 2 * 10 ^ (d + k) + 2 * 10 ^ k := by
    rw [pow_add, Nat.succ_mul]
    ring
  rw [roundDiv, ← Nat.lt_succ_iff, Nat.div_lt_iff_lt_mul (by omega)]
  omega

/-- A rounded number has at most as many digits as it is rounded to. -/
theorem digits_ofPartsRounded_le (c e : ℤ) (digit : 0 < d) :
    (ofPartsRounded d c e).digits ≤ d := by
  unfold ofPartsRounded
  dsimp only
  split
  · rename_i fits
    have few : c.natAbs < 10 ^ d := (digitCount_le_iff digit).1 (by omega)
    exact digits_ofParts_le few.le digit
  · refine digits_ofParts_le ?_ digit
    have := roundDiv_le (n := c.natAbs) (k := digitCount c.natAbs - d) digit (by omega)
    calc (c.sign * (roundDiv c.natAbs (tenPow (digitCount c.natAbs - d)) : ℤ)).natAbs
        = c.sign.natAbs * roundDiv c.natAbs (10 ^ (digitCount c.natAbs - d)) := by
          rw [Int.natAbs_mul, Int.natAbs_natCast, tenPow_eq]
      _ ≤ 1 * roundDiv c.natAbs (10 ^ (digitCount c.natAbs - d)) :=
          Nat.mul_le_mul_right _ (by rw [Int.natAbs_sign]; split <;> decide)
      _ ≤ 10 ^ d := by rwa [one_mul]

theorem digits_roundTo_le (x : Decimal) (digit : 0 < d) : (x.roundTo d).digits ≤ d :=
  digits_ofPartsRounded_le _ _ digit

/-- A number with few digits is not changed by rounding. -/
theorem roundTo_eq_self {x : Decimal} (few : x.digits ≤ d) : x.roundTo d = x := by
  unfold roundTo ofPartsRounded
  rw [if_pos (.inr (Nat.sub_eq_zero_of_le few)), ofParts_eq_self]

/-- The value of a number with few digits is its own rounding. -/
theorem nearest_value {x : Decimal} (few : x.digits ≤ d) (digit : 0 < d) :
    nearest d x.value = x.value := by
  rw [← value_roundTo x digit, roundTo_eq_self few]

/-- Rounding keeps the sign. -/
theorem isNegative_roundTo (x : Decimal) (digit : 0 < d) :
    (x.roundTo d).isNegative = x.isNegative := by
  rw [Bool.eq_iff_iff, isNegative_iff_value, isNegative_iff_value, value_roundTo x digit]
  constructor
  · intro below
    by_contra above
    exact absurd below (not_lt.2 (nearest_nonneg (not_lt.1 above)))
  · intro below
    have nonnegative := nearest_nonneg (d := d) (neg_nonneg.2 below.le)
    rw [nearest_neg, neg_nonneg] at nonnegative
    exact lt_of_le_of_ne nonnegative (mt (nearest_eq_zero_iff digit).1 below.ne)

/-- Sizes are rounded as the numbers are. -/
theorem roundTo_abs (x : Decimal) (digit : 0 < d) : x.abs.roundTo d = (x.roundTo d).abs := by
  apply value_injective
  rw [value_roundTo _ digit, value_abs, value_abs, value_roundTo _ digit, abs_nearest]

end Decimal

end Calculator
