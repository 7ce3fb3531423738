import Calculator.Proofs.Real.SineCosine

/-!
# The partial sums of sine and cosine

A sum that is left after `k` steps holds the terms of index `0` to `k`. None of them exceeds 90, so
all roundings together are off by less than `10 ^ -128`. This says nothing yet of the series that
the sum is cut from.
-/

namespace Calculator.Decimal

open Precision (working)

variable {angle first r : Decimal} {i k : ℕ} {t : ℚ}

/-- The exact terms are those of the series. -/
theorem alternatingTerm_pow (parity : i ≤ 1) (t : ℚ) (n : ℕ) :
    alternatingTerm (t ^ i) t (i + 1) n = (-1) ^ n * t ^ (i + 2 * n) / (i + 2 * n).factorial := by
  rw [alternatingTerm, unsignedTerm_pow parity, mul_div_assoc]

/-- The roundings of up to a hundred terms. -/
theorem AlternatingSum.Follows.abs_sum_sub_le {a : ℚ} {c : ℕ} {s : AlternatingSum} (few : k ≤ 100)
    (h : s.Follows a t c 90 k) :
    |s.sum.value - ∑ j ∈ Finset.range (k + 1), alternatingTerm a t c j| ≤ 2 * 10 ^ (-129 : ℤ) := by
  have count : (k : ℚ) ≤ 100 := by exact_mod_cast few
  refine h.sum.trans ?_
  rw [roundoff_working]
  calc 4 * (k : ℚ) * (k + 2) * (5 * 10 ^ (-136 : ℤ)) * 90
      ≤ 4 * 100 * (100 + 2) * (5 * 10 ^ (-136 : ℤ)) * 90 := by gcongr
    _ ≤ 2 * 10 ^ (-129 : ℤ) := by norm_num

/-- What a loop returns after `k` steps is near the sum of the terms up to the index `k`, the last
of which is small. -/
theorem AlternatingSum.Returns.near_partial_sum (parity : i ≤ 1) (ha : angle.IsWorking)
    (hf : first.IsWorking) (value : first.value = angle.value ^ i)
    (small : |angle.value| ≤ 63 / 10) (h : Returns first angle (ofInt (i + 1 : ℕ)) k r) :
    |r.value - ∑ j ∈ Finset.range (k + 1),
        (-1) ^ j * angle.value ^ (i + 2 * j) / (i + 2 * j).factorial| < 10 ^ (-128 : ℤ) ∧
      |angle.value ^ (i + 2 * k) / (i + 2 * k).factorial| ≤ 2 * 10 ^ (-136 : ℤ) := by
  obtain ⟨few, s, follows, done, rfl⟩ := h.follows parity ha hf value small
  have near := follows.abs_sum_sub_le few
  have last := follows.abs_unsignedTerm_le (by omega) done
  simp only [alternatingTerm_pow parity] at near
  rw [unsignedTerm_pow parity] at last
  exact ⟨near.trans_lt (by norm_num), last⟩

open AlternatingSum (Returns)

/-- The series of the sine and of the cosine return what their loops leave with, and after `k` steps
this differs from the exact partial sum by less than `10 ^ -128`; the term of index `k` is small. -/
theorem alternatingSeries_near_partial_sum {t : Decimal} (ht : t.IsWorking)
    (small : |t.value| ≤ 63 / 10) :
    ((∀ r, alternatingSeries t t 2 = .ok r ↔ ∃ k, Returns t t 2 k r) ∧
      ∀ k r, Returns t t 2 k r →
        |r.value - ∑ j ∈ Finset.range (k + 1),
            (-1) ^ j * t.value ^ (2 * j + 1) / (2 * j + 1).factorial| < 10 ^ (-128 : ℤ) ∧
          |t.value ^ (2 * k + 1) / (2 * k + 1).factorial| ≤ 2 * 10 ^ (-136 : ℤ)) ∧
    (∀ r, alternatingSeries 1 t 1 = .ok r ↔ ∃ k, Returns 1 t 1 k r) ∧
      ∀ k r, Returns 1 t 1 k r →
        |r.value - ∑ j ∈ Finset.range (k + 1),
            (-1) ^ j * t.value ^ (2 * j) / (2 * j).factorial| < 10 ^ (-128 : ℤ) ∧
          |t.value ^ (2 * k) / (2 * k).factorial| ≤ 2 * 10 ^ (-136 : ℤ) := by
  have unit : (1 : Decimal).value = t.value ^ 0 := value_one.trans (pow_zero _).symm
  refine ⟨⟨?_, fun k r h => ?_⟩, ?_, fun k r h => ?_⟩
  · exact fun r => alternatingSeries_eq_ok (i := 1) le_rfl ht ht (pow_one _).symm small
  · have near := h.near_partial_sum (i := 1) le_rfl ht ht (pow_one _).symm small
    simpa only [Nat.add_comm 1] using near
  · exact fun r => alternatingSeries_eq_ok (i := 0) (by decide) ht isWorking_one unit small
  · have near := h.near_partial_sum (i := 0) (by decide) ht isWorking_one unit small
    simpa only [Nat.zero_add] using near

/-- The terms for six grow to sixty-five before they fall. -/
theorem alternatingSeries_near_partial_sum_six : IsWorking 6 ∧ |(6 : Decimal).value| ≤ 63 / 10 ∧
    (∃ k r, alternatingSeries 6 6 2 = .ok r ∧ Returns 6 6 2 k r ∧
      |r.value - ∑ j ∈ Finset.range (k + 1),
        (-1) ^ j * (6 : Decimal).value ^ (2 * j + 1) / (2 * j + 1).factorial| < 10 ^ (-128 : ℤ)) ∧
    ∃ k r, alternatingSeries 1 6 1 = .ok r ∧ Returns 1 6 1 k r ∧
      |r.value - ∑ j ∈ Finset.range (k + 1),
        (-1) ^ j * (6 : Decimal).value ^ (2 * j) / (2 * j).factorial| < 10 ^ (-128 : ℤ) := by
  have six : IsWorking 6 := by decide
  have value : (6 : Decimal).value = 6 := value_ofNat 6
  have small : |(6 : Decimal).value| ≤ 63 / 10 := by
    rw [value]
    norm_num
  have moderate : Within 136 (6 : Decimal).value := by
    rw [value]
    exact .inr (by norm_num)
  obtain ⟨⟨sine_iff, sine_near⟩, cosine_iff, cosine_near⟩ :=
    alternatingSeries_near_partial_sum six small
  obtain ⟨s, sine, -⟩ := exists_alternatingSeries (i := 1) le_rfl six six (pow_one _).symm small
    moderate
  obtain ⟨c, cosine, -⟩ := exists_alternatingSeries (i := 0) (by decide) six isWorking_one
    (value_one.trans (pow_zero _).symm) small moderate
  obtain ⟨k, sine_returns⟩ := (sine_iff s).1 sine
  obtain ⟨l, cosine_returns⟩ := (cosine_iff c).1 cosine
  exact ⟨six, small, ⟨k, s, sine, sine_returns, (sine_near k s sine_returns).1⟩,
    l, c, cosine, cosine_returns, (cosine_near l c cosine_returns).1⟩

end Calculator.Decimal
