import Calculator.Proofs.Decimal.Rounding

/-!
# Rounding within a decade

Numbers with one exponent of the leading digit are rounded at one place, so which of them are rounded
to at least `k · 10 ^ e` is seen at half a unit below it. That stays so at both ends of the decade:
what is smaller is rounded to the lower end at most, what is larger to the upper end at least.
-/

namespace Calculator

open Decimal (ten_zpow_pos ten_zpow_add)

variable {d k : ℕ} {e : ℤ} {q : ℚ}

/-! ## The place of rounding -/

theorem log_of_decade (digit : 0 < d) (low : 10 ^ (d - 1) * 10 ^ e ≤ q)
    (high : q < 10 ^ d * 10 ^ e) : Int.log 10 q = e + d - 1 := by
  refine Decimal.log_eq ?_ ?_
  · have lower : (10 : ℚ) ^ (e + d - 1) = 10 ^ (d - 1) * 10 ^ e := by
      rw [← zpow_natCast, ← ten_zpow_add]
      congr 1
      omega
    rwa [lower]
  · have upper : (10 : ℚ) ^ (e + d - 1 + 1) = 10 ^ d * 10 ^ e := by
      rw [← zpow_natCast, ← ten_zpow_add]
      congr 1
      omega
    rwa [upper]

theorem place_of_decade (digit : 0 < d) (low : 10 ^ (d - 1) * 10 ^ e ≤ q)
    (high : q < 10 ^ d * 10 ^ e) : place d q = e := by
  have unit := ten_zpow_pos e
  have pos : 0 < q := lt_of_lt_of_le (by positivity) low
  rw [place, abs_of_pos pos, log_of_decade digit low high]
  ring

theorem nearest_of_decade (digit : 0 < d) (low : 10 ^ (d - 1) * 10 ^ e ≤ q)
    (high : q < 10 ^ d * 10 ^ e) : nearest d q = round (q / 10 ^ e) * 10 ^ e := by
  have unit := ten_zpow_pos e
  have pos : 0 < q := lt_of_lt_of_le (by positivity) low
  rw [nearest_of_pos pos, place_of_decade digit low high]

/-- The ends of decades are kept. -/
theorem nearest_pow_mul (digit : 0 < d) (n : ℕ) :
    nearest d (10 ^ n * 10 ^ e) = 10 ^ n * 10 ^ e := by
  have one : (10 : ℚ) ^ n * 10 ^ e = (1 : ℤ) * 10 ^ (n + e) := by
    rw [ten_zpow_add, zpow_natCast]
    push_cast
    ring
  rw [one]
  exact nearest_of_few (Nat.one_lt_pow (by omega) (by decide)) digit

/-- Half a unit less than a number is a whole number of tenths. -/
theorem sub_half_mul (some : 0 < k) (e : ℤ) :
    ((k : ℚ) - 1 / 2) * 10 ^ e = (10 * k - 5 : ℕ) * 10 ^ (e - 1) := by
  rw [Nat.cast_sub (by omega), zpow_sub_one₀ (by norm_num)]
  push_cast
  ring

/-! ## What is rounded to a number -/

/-- A number is rounded to `k · 10 ^ e` or higher when it lacks half a unit at most. -/
theorem le_nearest_iff (digit : 0 < d) (low : 10 ^ (d - 1) < k) (high : k ≤ 10 ^ d) (pos : 0 < q) :
    (k : ℚ) * 10 ^ e ≤ nearest d q ↔ ((k : ℚ) - 1 / 2) * 10 ^ e ≤ q := by
  have unit := ten_zpow_pos e
  have above : (10 : ℚ) ^ (d - 1) + 1 ≤ k := by exact_mod_cast low
  have below : (k : ℚ) ≤ 10 ^ d := by exact_mod_cast high
  rcases lt_or_ge q (10 ^ (d - 1) * 10 ^ e) with small | front
  · have rounded := nearest_mono_of_pos digit pos small.le
    rw [nearest_pow_mul digit] at rounded
    refine iff_of_false (not_le.2 (rounded.trans_lt ?_)) (not_le.2 (small.trans ?_))
    · exact mul_lt_mul_of_pos_right (by linarith) unit
    · exact mul_lt_mul_of_pos_right (by linarith) unit
  · rcases lt_or_ge q (10 ^ d * 10 ^ e) with within | large
    · rw [nearest_of_decade digit front within, mul_le_mul_iff_of_pos_right unit, ← le_div_iff₀ unit,
        round_eq, ← Int.cast_natCast, Int.cast_le, Int.le_floor]
      constructor <;> intro h <;> linarith
    · have rounded := nearest_mono_of_pos digit (by positivity) large
      rw [nearest_pow_mul digit] at rounded
      refine iff_of_true (le_trans ?_ rounded) (le_trans ?_ large)
      · exact mul_le_mul_of_nonneg_right below unit.le
      · exact mul_le_mul_of_nonneg_right (by linarith) unit.le

/-- It is rounded to `k · 10 ^ e` or lower when it exceeds that by less than half a unit. -/
theorem nearest_le_iff (digit : 0 < d) (low : 10 ^ (d - 1) ≤ k) (high : k < 10 ^ d) (pos : 0 < q) :
    nearest d q ≤ (k : ℚ) * 10 ^ e ↔ q < ((k : ℚ) + 1 / 2) * 10 ^ e := by
  have unit := ten_zpow_pos e
  have above : (10 : ℚ) ^ (d - 1) ≤ k := by exact_mod_cast low
  have below : (k : ℚ) + 1 ≤ 10 ^ d := by exact_mod_cast high
  rcases lt_or_ge q (10 ^ (d - 1) * 10 ^ e) with small | front
  · have rounded := nearest_mono_of_pos digit pos small.le
    rw [nearest_pow_mul digit] at rounded
    refine iff_of_true (rounded.trans ?_) (small.trans ?_)
    · exact mul_le_mul_of_nonneg_right above unit.le
    · exact mul_lt_mul_of_pos_right (by linarith) unit
  · rcases lt_or_ge q (10 ^ d * 10 ^ e) with within | large
    · rw [nearest_of_decade digit front within, mul_le_mul_iff_of_pos_right unit, ← div_lt_iff₀ unit,
        round_eq, ← Int.cast_natCast, Int.cast_le, ← Int.lt_add_one_iff, Int.floor_lt]
      push_cast
      constructor <;> intro h <;> linarith
    · have rounded := nearest_mono_of_pos digit (by positivity) large
      rw [nearest_pow_mul digit] at rounded
      refine iff_of_false (not_le.2 (lt_of_lt_of_le ?_ rounded)) (not_lt.2 (le_trans ?_ large))
      · exact mul_lt_mul_of_pos_right (by linarith) unit
      · exact mul_le_mul_of_nonneg_right (by linarith) unit.le

/-- Inside the decade these are the numbers from half a unit below to less than half a unit above. -/
theorem nearest_eq_iff (digit : 0 < d) (low : 10 ^ (d - 1) < k) (high : k < 10 ^ d) (pos : 0 < q) :
    nearest d q = k * 10 ^ e ↔
      ((k : ℚ) - 1 / 2) * 10 ^ e ≤ q ∧ q < ((k : ℚ) + 1 / 2) * 10 ^ e := by
  rw [← le_nearest_iff digit low high.le pos, ← nearest_le_iff digit low.le high pos, le_antisymm_iff,
    and_comm]

/-- A number in a decade, or below it, is off by half a unit of the decade at most. -/
theorem abs_nearest_sub_le_half (pos : 0 < q) (high : q < 10 ^ d * 10 ^ e) :
    |nearest d q - q| ≤ 1 / 2 * 10 ^ e := by
  have coarser : place d q ≤ e := by
    have top : (10 : ℚ) ^ d * 10 ^ e = 10 ^ (e + d) := by
      rw [ten_zpow_add, zpow_natCast, mul_comm]
    rw [top] at high
    have log := (Int.lt_zpow_iff_log_lt (b := 10) (by decide) pos).1 (by exact_mod_cast high)
    rw [place, abs_of_pos pos]
    omega
  calc |nearest d q - q| ≤ 1 / 2 * 10 ^ place d q := abs_nearest_sub_le_place pos
    _ ≤ 1 / 2 * 10 ^ e :=
        mul_le_mul_of_nonneg_left (zpow_le_zpow_right₀ (by norm_num) coarser) (by norm_num)

/-! ## Numbers with all their digits -/

/-- A positive number of at most `d` digits is a whole number of exactly `d` digits at its place. -/
theorem Decimal.exists_full {x : Decimal} (few : x.digits ≤ d) (pos : 0 < x.value) :
    ∃ (k : ℕ) (e : ℤ), 10 ^ (d - 1) ≤ k ∧ k < 10 ^ d ∧ x.value = k * 10 ^ e ∧
      e + d - 1 = x.adjusted := by
  have some : 0 < x.digits := digitCount_pos _
  have front := pow_digits_le (mt value_eq_zero_iff.2 pos.ne')
  have back : x.coefficient.natAbs < 10 ^ x.digits := (digits_le_iff some).1 le_rfl
  refine ⟨x.coefficient.natAbs * 10 ^ (d - x.digits), x.exponent - (d - x.digits : ℕ),
    ?_, ?_, ?_, ?_⟩
  · calc 10 ^ (d - 1) = 10 ^ (x.digits - 1) * 10 ^ (d - x.digits) := by
          rw [← pow_add]
          congr 1
          omega
      _ ≤ x.coefficient.natAbs * 10 ^ (d - x.digits) := Nat.mul_le_mul_right _ front
  · calc x.coefficient.natAbs * 10 ^ (d - x.digits) < 10 ^ x.digits * 10 ^ (d - x.digits) :=
          Nat.mul_lt_mul_of_pos_right back (by positivity)
      _ = 10 ^ d := by
          rw [← pow_add]
          congr 1
          omega
  · have whole : (x.coefficient : ℚ) = x.coefficient.natAbs := by
      rw [← Int.cast_natCast, Int.natAbs_of_nonneg (coefficient_nonneg pos.le)]
    rw [value, whole, zpow_sub₀ (by norm_num), zpow_natCast]
    push_cast
    field_simp
  · rw [adjusted]
    omega

/-! ## Numbers that are close -/

/-- Numbers between two that are rounded alike are rounded like them. -/
theorem nearest_eq_of_abs_sub_le {r δ : ℚ} (digit : 0 < d) (less : δ < 1)
    (near : |q - r| ≤ δ * |r|) (same : nearest d (r * (1 - δ)) = nearest d (r * (1 + δ))) :
    nearest d q = nearest d r := by
  wlog pos : 0 < r generalizing q r
  · rcases (not_lt.1 pos).eq_or_lt with rfl | negative
    · rw [abs_zero, mul_zero, abs_nonpos_iff, sub_zero] at near
      rw [near]
    · have flipped := this (q := -q) (r := -r) (by rwa [neg_sub_neg, abs_neg, abs_sub_comm])
        (by rw [neg_mul, neg_mul, nearest_neg, nearest_neg, same]) (neg_pos.2 negative)
      rwa [nearest_neg, nearest_neg, neg_inj] at flipped
  · rw [abs_of_pos pos] at near
    obtain ⟨low, high⟩ := abs_le.1 near
    have nonneg : 0 ≤ δ * r := (abs_nonneg _).trans near
    have least : 0 < r * (1 - δ) := mul_pos pos (sub_pos.2 less)
    have unit (s : ℚ) (above : r * (1 - δ) ≤ s) (below : s ≤ r * (1 + δ)) :
        nearest d s = nearest d (r * (1 - δ)) :=
      le_antisymm ((nearest_mono_of_pos digit (least.trans_le above) below).trans_eq same.symm)
        (nearest_mono_of_pos digit least above)
    rw [unit q (by linarith) (by linarith), unit r (by linarith) (by linarith)]

/-- A number of at most `d` digits is what close numbers are rounded to. -/
theorem Decimal.nearest_eq_value {x : Decimal} {δ : ℚ} (few : x.digits ≤ d) (digit : 0 < d)
    (small : 40 * δ * 10 ^ d ≤ 1) (near : |q - x.value| ≤ δ * |x.value|) :
    nearest d q = x.value := by
  wlog pos : 0 < x.value generalizing q x
  · rcases (not_lt.1 pos).eq_or_lt with vanishes | negative
    · rw [vanishes, abs_zero, mul_zero, abs_nonpos_iff, sub_zero] at near
      rw [near, nearest_zero, vanishes]
    · have flipped := this (q := -q) (x := -x)
        (by rwa [digits, coefficient_neg, Int.natAbs_neg, ← digits])
        (by rwa [value_neg, neg_sub_neg, abs_neg, abs_sub_comm])
        (by rwa [value_neg, neg_pos])
      rwa [value_neg, nearest_neg, neg_inj] at flipped
  · obtain ⟨k, e, low, high, value, -⟩ := exists_full few pos
    have unit := ten_zpow_pos e
    have most : (k : ℚ) ≤ 10 ^ d := by exact_mod_cast high.le
    have least : (1 : ℚ) ≤ k := by exact_mod_cast (Nat.one_le_pow _ _ (by decide)).trans low
    rw [abs_of_pos pos] at near
    have nonneg : 0 ≤ δ := nonneg_of_mul_nonneg_left ((abs_nonneg _).trans near) pos
    have close : δ * x.value ≤ 1 / 40 * 10 ^ e :=
      calc δ * x.value = δ * k * 10 ^ e := by rw [value, mul_assoc]
        _ ≤ δ * 10 ^ d * 10 ^ e :=
            mul_le_mul_of_nonneg_right (mul_le_mul_of_nonneg_left most nonneg) unit.le
        _ ≤ 1 / 40 * 10 ^ e := mul_le_mul_of_nonneg_right (by linarith) unit.le
    have front := mul_le_mul_of_nonneg_right least unit.le
    obtain ⟨below, above⟩ := abs_le.1 near
    have qpos : 0 < q := by linarith
    rw [value]
    refine le_antisymm ((nearest_le_iff digit low high qpos).2 (by linarith)) ?_
    rcases low.eq_or_lt with power | inside
    · -- below a power of ten the places are finer
      have ten : 10 ^ d = 10 * k := by rw [← power, ← pow_succ', Nat.sub_add_cancel digit]
      have finer : (10 : ℚ) ^ (e - 1) * 10 = 10 ^ e := by
        rw [zpow_sub_one₀ (by norm_num), inv_mul_cancel_right₀ (by norm_num)]
      have same : (k : ℚ) * 10 ^ e = (10 ^ d : ℕ) * 10 ^ (e - 1) := by
        rw [ten, ← finer]
        push_cast
        ring
      rw [same, le_nearest_iff digit (Nat.pow_lt_pow_right (by decide) (by omega)) le_rfl qpos,
        sub_mul, ← same]
      linarith
    · rw [le_nearest_iff digit inside high.le qpos]
      linarith

end Calculator
