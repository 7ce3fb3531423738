import Calculator.Proofs.Real.AlternatingSum

/-!
# The sum of the inverse tangent

The sum is followed in the same way as that of the sine. The denominators are the odd numbers, which
are counted without a rounding. For numbers of at most a half every term is at most a quarter of the
one before it.
-/

namespace Calculator

open Precision (working exponentBound)
open Decimal (working_digits_pos)

variable {k n : ℕ} {t M : ℚ}

/-- The term of index `k` of the sum `t - t³ / 3 + t⁵ / 5 - …`. -/
def oddTerm (t : ℚ) (k : ℕ) : ℚ := t * (-(t * t)) ^ k / (1 + 2 * k : ℕ)

/-- Up to a half the terms fall by a factor of four from one to the next. -/
theorem abs_oddTerm_le (small : |t| ≤ 1 / 2) (k : ℕ) : |oddTerm t k| ≤ 1 / 2 * (1 / 4) ^ k := by
  have count : (1 : ℚ) ≤ (1 + 2 * k : ℕ) := by exact_mod_cast (by omega : 1 ≤ 1 + 2 * k)
  have square : |-(t * t)| ≤ 1 / 4 := by
    rw [abs_neg, abs_mul]
    calc |t| * |t| ≤ 1 / 2 * (1 / 2) := mul_le_mul small small (abs_nonneg t) (by norm_num)
      _ = 1 / 4 := by norm_num
  rw [oddTerm, abs_div, abs_mul, abs_pow, Nat.abs_cast]
  calc |t| * |-(t * t)| ^ k / (1 + 2 * k : ℕ) ≤ |t| * |-(t * t)| ^ k :=
        div_le_self (by positivity) count
    _ ≤ 1 / 2 * (1 / 4) ^ k := by gcongr

/-- No term is larger than one. -/
theorem abs_oddTerm_le_one (small : |t| ≤ 1 / 2) (k : ℕ) : |oddTerm t k| ≤ 1 := by
  have power : (1 / 4 : ℚ) ^ k ≤ 1 := pow_le_one₀ (by norm_num) (by norm_num)
  have bound := abs_oddTerm_le small k
  linarith

/-- Two hundred and fifty terms are more than any of the sums takes. -/
theorem abs_oddTerm_last_le (small : |t| ≤ 1 / 2) : |oddTerm t 250| ≤ 5 * 10 ^ (-137 : ℤ) := by
  refine (abs_oddTerm_le small 250).trans ?_
  norm_num

namespace Decimal.OddSum

variable {factor : Decimal} {s s' : OddSum}

/-- A step gives the next numerator, denominator, term and sum, if all four are answered. -/
theorem step_eq_ok : s.step factor = .ok s' ↔
    s.numerator.mul factor = .ok s'.numerator ∧ s.denominator.add 2 = .ok s'.denominator ∧
      s'.numerator.div s'.denominator = .ok s'.term ∧ s.sum.add s'.term = .ok s'.sum := by
  simp only [step, bind_eq_ok]
  constructor
  · rintro ⟨numerator, first, denominator, second, term, third, sum, fourth, ⟨⟩⟩
    exact ⟨first, second, third, fourth⟩
  · rintro ⟨first, second, third, fourth⟩
    exact ⟨_, first, _, second, _, third, _, fourth, rfl⟩

/-- Where the sum stands after the term of index `k`. -/
structure Follows (t : ℚ) (k : ℕ) (s : OddSum) : Prop where
  numerator : working.Approximates (2 * k) s.numerator (t * (-(t * t)) ^ k)
  denominator : s.denominator = ofInt (1 + 2 * k : ℕ)
  term : working.Approximates (3 * k + 1) s.term (oddTerm t k)
  few : s.sum.digits ≤ working.digits
  sum : Tallies (oddTerm t) 1 k s.sum.value

/-- The sum that holds its first term stands at index zero. -/
theorem follows_start {x : Decimal} (hx : x.IsWorking) : (start x).Follows x.value 0 := by
  have term : oddTerm x.value 0 = x.value := by simp [oddTerm]
  refine ⟨?_, rfl, ?_, hx.digits_le, ?_⟩
  · rw [Nat.mul_zero, pow_zero, mul_one]
    exact .of_few working_digits_pos hx.digits_le
  · rw [term]
    exact .of_few working_digits_pos hx.digits_le
  · have tally := Tallies.start (oddTerm x.value) 1
    rwa [term] at tally

/-- The denominators are odd, so no quotient divides by zero. -/
theorem value_count_ne_zero (k : ℕ) : (ofInt (1 + 2 * k : ℕ)).value ≠ 0 := by
  rw [value_ofInt, Int.cast_natCast]
  exact_mod_cast (by omega : 1 + 2 * k ≠ 0)

/-- The numerator gains two roundings: one in the square and one in its own product. -/
theorem Follows.next_numerator {numerator : Decimal}
    (square : working.Approximates 1 factor (-(t * t))) (h : s.Follows t k)
    (product : s.numerator.mul factor = .ok numerator) :
    working.Approximates (2 * (k + 1)) numerator (t * (-(t * t)) ^ (k + 1)) := by
  have power : t * (-(t * t)) ^ (k + 1) = t * (-(t * t)) ^ k * -(t * t) := by ring
  rw [power]
  exact h.numerator.multiply working_digits_pos square (reported_eq_ok.1 product)

/-- A term has one rounding more than its numerator, as its denominator is exact. -/
theorem next_term {numerator term : Decimal} (few : k ≤ 1000)
    (above : working.Approximates (2 * k) numerator (t * (-(t * t)) ^ k))
    (quotient : numerator.div (ofInt (1 + 2 * k : ℕ)) = .ok term) :
    working.Approximates (3 * k + 1) term (oddTerm t k) := by
  have digit := working_digits_pos
  have short : (1 + 2 * k) < 10 ^ 136 := (by omega : 1 + 2 * k < 3000).trans (by norm_num)
  have below := Precision.Approximates.of_few (n := 0) digit (isWorking_natCast short).digits_le
  rw [value_ofInt, Int.cast_natCast] at below
  have rounded := above.divide digit below (value_count_ne_zero k) (reported_eq_ok.1 quotient)
  exact rounded.mono digit (by omega)

/-- A step takes in the next term. -/
theorem Follows.step (square : working.Approximates 1 factor (-(t * t))) (small : |t| ≤ 1 / 2)
    (few : k + 1 ≤ 1000) (h : s.Follows t k) (next : s.step factor = .ok s') :
    s'.Follows t (k + 1) := by
  have digit := working_digits_pos
  obtain ⟨product, counted, quotient, joined⟩ := step_eq_ok.1 next
  have short : (1 + 2 * k) + 2 < 10 ^ 136 := (by omega : 1 + 2 * k + 2 < 3000).trans (by norm_num)
  rw [h.denominator, add_two_eq short] at counted
  have denominator : s'.denominator = ofInt (1 + 2 * (k + 1) : ℕ) := (Except.ok.inj counted).symm
  rw [denominator] at quotient
  have numerator := h.next_numerator square product
  have term := next_term few numerator quotient
  refine ⟨numerator, denominator, term, IsWorking.digits_le (yields_add _ _ _ joined), ?_⟩
  have answer := Precision.add_answers (p := working) s.sum s'.term digit
  rw [reported_eq_ok.1 joined, lift_eq_self h.few, lift_eq_self term.few] at answer
  rw [answer.value_eq]
  exact h.sum.step (abs_oddTerm_le_one small) few term.drift

/-- A step goes through with a number that is not very small. -/
theorem Follows.exists_step (square : working.Approximates 1 factor (-(t * t)))
    (small : |t| ≤ 1 / 2) (moderate : Within 136 t) (few : k + 1 ≤ 1000)
    (grid : OnGrid (-300000) s.sum.value) (h : s.Follows t k) :
    ∃ s', s.step factor = .ok s' ∧ OnGrid (-300000) s'.sum.value := by
  have top : exponentBound.toNat = 999999 := rfl
  have places : working.digits = 136 := rfl
  have count : 1 + 2 * (k + 1) < 3000 := by omega
  have short : 1 + 2 * (k + 1) < 10 ^ 136 := count.trans (by norm_num)
  have within_square : Within (136 + 136) (-(t * t)) := by
    rw [← neg_mul]
    exact moderate.neg.mul moderate
  obtain ⟨numerator, product, -⟩ : ∃ n, s.numerator.mul factor = .ok n ∧ _ := by
    refine exists_mul h.numerator.few square.few ?_
    have within_factor := square.within (by omega) within_square
    have within_numerator := h.numerator.within (by omega) (moderate.mul (within_square.pow k))
    exact (within_numerator.mul within_factor).mono (by omega)
  have above := h.next_numerator square product
  have within_above := above.within (by omega) (moderate.mul (within_square.pow (k + 1)))
  have within_below : Within 4 (ofInt (1 + 2 * (k + 1) : ℕ)).value := by
    rw [value_ofInt, Int.cast_natCast]
    refine .inr ⟨?_, ?_⟩
    · rw [Nat.abs_cast]
      refine le_trans ?_ (Nat.one_le_cast.2 (by omega))
      norm_num
    · rw [Nat.abs_cast]
      exact_mod_cast (by omega : 1 + 2 * (k + 1) ≤ 10 ^ 4)
  have within_term := within_above.div within_below
  obtain ⟨term, quotient, rounded⟩ := exists_div above.few (isWorking_natCast short).digits_le
    (value_count_ne_zero _) (within_term.mono (by omega))
  have next := next_term few above quotient
  have term_grid : OnGrid (-300000) term.value := by
    rw [rounded]
    exact (within_term.onGrid_nearest (d := working.digits)).mono (by omega)
  have total := grid.add term_grid
  have sum_le : |s.sum.value + term.value| ≤ 10 ^ 300000 := by
    have before := h.sum.abs_le (abs_oddTerm_le_one small) (by omega)
    have after := next.drift.abs_le_two_mul working_digits_pos (few_roundings (by omega))
    have bound := abs_oddTerm_le_one small (k + 1)
    have terms : (k : ℚ) + 2 ≤ 1001 := by exact_mod_cast (by omega : k + 2 ≤ 1001)
    calc |s.sum.value + term.value| ≤ |s.sum.value| + |term.value| := abs_add_le _ _
      _ ≤ 10 ^ 4 := by linarith
      _ ≤ 10 ^ 300000 := pow_le_pow_right₀ (by norm_num) (by omega)
  obtain ⟨sum, joined, value⟩ :=
    exists_add h.few next.few ((total.within (e := 300000) sum_le).mono (by omega))
  refine ⟨⟨sum, term, numerator, ofInt (1 + 2 * (k + 1) : ℕ)⟩,
    step_eq_ok.2 ⟨product, ?_, quotient, joined⟩, value ▸ total.nearest _⟩
  rw [h.denominator, add_two_eq (by omega)]
  rfl

/-- The loop is left where the exact term is below the threshold by a margin for its roundings. -/
theorem Follows.isDone (few : k ≤ 1000) (h : s.Follows t k)
    (tiny : |oddTerm t k| ≤ 5 * 10 ^ (-137 : ℤ)) : s.isDone = true := by
  have grown := h.term.drift.abs_le_two_mul working_digits_pos (few_roundings (by omega))
  rw [OddSum.isDone, decide_eq_true_iff, le_iff_value, value_abs, AlternatingSum.value_termThreshold]
  norm_num at tiny ⊢
  linarith

/-- The sum is a loop with a limit, as `IsLoop` describes it. -/
theorem isLoop (factor : Decimal) : IsLoop (run factor) (step factor) isDone := by
  refine ⟨fun s => rfl, fun limit s => ?_⟩
  rw [run]
  rfl

section Run

variable {limit : ℕ} (square : working.Approximates 1 factor (-(t * t))) (small : |t| ≤ 1 / 2)

include square small

/-- A run that has an answer ends with a term that no longer matters. -/
theorem Follows.run (enough : 250 ≤ limit) (h : s.Follows t 0)
    (answer : OddSum.run factor limit s = .ok s') :
    ∃ k ≤ 250, s'.Follows t k ∧ s'.isDone = true := by
  obtain ⟨k, -, below, follows, done⟩ := (isLoop factor).ends (N := 250) (I := Follows t)
    (fun k s s' below h stepped => h.step square small (by omega) stepped)
    (fun s h => h.isDone (by omega) (abs_oddTerm_last_le small)) (by omega) (by omega) h answer
  exact ⟨k, below, follows, done⟩

/-- The loop is left, with an answer or with the error of a step. -/
theorem Follows.exists_leavesAfter (h : s.Follows t 0) :
    ∃ k ≤ 250, ∃ r, LeavesAfter (OddSum.step factor) OddSum.isDone k s r := by
  obtain ⟨k, inside, leaves⟩ := LeavesAfter.exists_of_keeps (N := 250) (I := Follows t)
    (fun k s s' below h stepped => h.step square small (by omega) stepped)
    (fun s h => h.isDone (by omega) (abs_oddTerm_last_le small)) (by omega) h
  exact ⟨k, by omega, leaves⟩

/-- A run with a number that is not very small has an answer. -/
theorem Follows.exists_run (moderate : Within 136 t) (enough : 250 ≤ limit) (h : s.Follows t 0)
    (grid : OnGrid (-300000) s.sum.value) :
    ∃ s', OddSum.run factor limit s = .ok s' ∧ OnGrid (-300000) s'.sum.value := by
  obtain ⟨s', k, answer, -, -, end_grid⟩ := (isLoop factor).exists_run (N := 250)
    (I := fun k s => s.Follows t k ∧ OnGrid (-300000) s.sum.value)
    (fun k s below ⟨h, grid⟩ => by
      obtain ⟨s', stepped, next⟩ := h.exists_step square small moderate (by omega) grid
      exact ⟨s', stepped, h.step square small (by omega) stepped, next⟩)
    (fun s h => h.1.isDone (by omega) (abs_oddTerm_last_le small)) (Nat.zero_le 250)
    (enough.trans_eq limit.zero_add.symm) ⟨h, grid⟩
  exact ⟨s', answer, end_grid⟩

end Run

end Decimal.OddSum

end Calculator
