import Mathlib.Data.Nat.Factorial.Basic
import Calculator.Proofs.Decimal.Integral
import Calculator.Proofs.Real.RoundedTerms

/-!
# The sum of the sine and the cosine

The sum is followed term by term. The numerator of the term of index `k` has gone through `2 k`
roundings and the denominator through `k`; the factors of the denominator are integers, which are
not rounded. So the term is `3 k + 1` roundings away from the exact one, and the sum is off by what
`Tallies` says. The exact terms of an angle of up to a turn fall below the threshold before the term
of index a hundred, so a sum that does not leave the bounds ends with a term that no longer matters.
-/

namespace Calculator

open Precision (working exponentBound)
open Decimal (IsWorking working_digits_pos)

variable {c k n : ℕ} {a t M : ℚ}

/-! ## Exact terms -/

/-- The term of index `k` without its sign. -/
def unsignedTerm (a t : ℚ) (c k : ℕ) : ℚ := a * t ^ (2 * k) / c.ascFactorial (2 * k)

/-- The term of index `k` of the sum `a - a · t² / (c (c + 1)) + …`. -/
def alternatingTerm (a t : ℚ) (c k : ℕ) : ℚ := (-1) ^ k * unsignedTerm a t c k

/-- The sign of a term does not change its size. -/
theorem abs_alternatingTerm (a t : ℚ) (c k : ℕ) :
    |alternatingTerm a t c k| = |unsignedTerm a t c k| := by
  rw [alternatingTerm, abs_mul, abs_pow, abs_neg, abs_one, one_pow, one_mul]

/-- Terms of even index are added. -/
theorem alternatingTerm_even (even : Even k) : alternatingTerm a t c k = unsignedTerm a t c k := by
  rw [alternatingTerm, even.neg_one_pow, one_mul]

/-- Terms of odd index are subtracted. -/
theorem alternatingTerm_odd (odd : ¬Even k) :
    alternatingTerm a t c k = -unsignedTerm a t c k := by
  rw [alternatingTerm, (Nat.not_even_iff_odd.1 odd).neg_one_pow, neg_one_mul]

/-- The denominator of the next term has two factors more. -/
theorem ascFactorial_add_two (c k : ℕ) :
    c.ascFactorial (2 * (k + 1)) = c.ascFactorial (2 * k) * ((c + 2 * k) * (c + 2 * k + 1)) := by
  have twice : 2 * (k + 1) = (2 * k + 1) + 1 := by ring
  rw [twice, Nat.ascFactorial_succ, Nat.ascFactorial_succ]
  ring

namespace Decimal

variable {sq : Decimal} {s s' : AlternatingSum}

/-! ## The factors of the denominator -/

/-- A counter of up to 136 digits is a working value. -/
theorem isWorking_natCast (few : n < 10 ^ 136) : (ofInt n).IsWorking :=
  isWorking_ofInt (by rwa [Int.natAbs_natCast])

/-- Sums and products of integers of few digits are not rounded. -/
theorem add_two_eq (few : n + 2 < 10 ^ 136) : (ofInt n).add 2 = .ok (ofInt (n + 2 : ℕ)) := by
  have left := isWorking_natCast (n := n) (by omega)
  have two : IsWorking 2 := by decide
  refine reported_of_answers (add_answers left two) (isWorking_natCast few) ?_
  rw [value_ofInt, value_ofInt, value_ofNat]
  push_cast
  ring

/-- A counter times its successor, as one product and sum. The product has few digits. -/
theorem fusedMultiplyAdd_self (few : n * (n + 1) < 10 ^ 136) :
    (ofInt n).fusedMultiplyAdd (ofInt n) (ofInt n) = .ok (ofInt (n * (n + 1) : ℕ)) := by
  have smaller : n < 10 ^ 136 := by nlinarith
  have answer := Precision.fusedMultiplyAdd_answers (p := working) (ofInt n) (ofInt n) (ofInt n)
    working_digits_pos
  refine reported_of_answers answer (isWorking_natCast few) ?_
  rw [(isWorking_natCast smaller).lift_eq, value_ofInt, value_ofInt]
  push_cast
  ring

namespace AlternatingSum

/-! ## One step -/

/-- A step computes the parts of the next term one after the other. -/
theorem step_eq_ok : s.step sq = .ok s' ↔
    s.numerator.mul sq = .ok s'.numerator ∧
      (∃ factors, s.count.fusedMultiplyAdd s.count s.count = .ok factors ∧
        s.denominator.mul factors = .ok s'.denominator) ∧
      s.count.add 2 = .ok s'.count ∧ s'.numerator.div s'.denominator = .ok s'.term ∧
      (if s.subtracting then s.sum.sub s'.term else s.sum.add s'.term) = .ok s'.sum ∧
      s'.subtracting = !s.subtracting := by
  unfold step
  cases s.subtracting
  all_goals
    simp only [Bool.false_eq_true, if_false, if_true, bind_eq_ok]
    constructor
    · rintro ⟨numerator, first, factors, second, denominator, third, count, fourth, term, fifth, sum,
        sixth, ⟨⟩⟩
      exact ⟨first, ⟨factors, second, third⟩, fourth, fifth, sixth, rfl⟩
    · rintro ⟨first, ⟨factors, second, third⟩, fourth, fifth, sixth, flipped⟩
      refine ⟨_, first, factors, second, _, third, _, fourth, _, fifth, _, sixth, ?_⟩
      rw [← flipped]
      rfl

/-- Where the sum stands after the term of index `k`. -/
structure Follows (a t : ℚ) (c : ℕ) (M : ℚ) (k : ℕ) (s : AlternatingSum) : Prop where
  numerator : working.Approximates (2 * k) s.numerator (a * t ^ (2 * k))
  denominator : working.Approximates k s.denominator (c.ascFactorial (2 * k))
  count : s.count = ofInt (c + 2 * k : ℕ)
  term : working.Approximates (3 * k + 1) s.term (unsignedTerm a t c k)
  few : s.sum.digits ≤ working.digits
  sum : Tallies (alternatingTerm a t c) M k s.sum.value
  subtracting : s.subtracting = decide (Even k)

/-- The sum that holds its first term stands at index zero. -/
theorem follows_start {first : Decimal} (hf : first.IsWorking) (c : ℕ) (t M : ℚ) :
    (start first (ofInt c)).Follows first.value t c M 0 := by
  have one : (1 : Decimal).digits ≤ working.digits := by decide
  have term : unsignedTerm first.value t c 0 = first.value := by simp [unsignedTerm]
  refine ⟨?_, ?_, rfl, ?_, hf.digits_le, ?_, rfl⟩
  · rw [Nat.mul_zero, pow_zero, mul_one]
    exact .of_few working_digits_pos hf.digits_le
  · rw [Nat.mul_zero, Nat.ascFactorial_zero, Nat.cast_one, ← value_one]
    exact .of_few working_digits_pos one
  · rw [term]
    exact .of_few working_digits_pos hf.digits_le
  · have tally := Tallies.start (alternatingTerm first.value t c) M
    rwa [alternatingTerm_even Even.zero, term] at tally

/-- The counters stay small. -/
theorem factors_few (start : c ≤ 10) (few : k + 1 ≤ 1000) :
    (c + 2 * k) * (c + 2 * k + 1) < 10 ^ 136 := by
  have bound : (c + 2 * k) * (c + 2 * k + 1) ≤ 3000 * 3000 := Nat.mul_le_mul (by omega) (by omega)
  exact bound.trans_lt (by norm_num)

/-- The numerator gains two roundings: one in the square and one in its own product. -/
theorem Follows.next_numerator {numerator : Decimal} (square : working.Approximates 1 sq (t * t))
    (h : s.Follows a t c M k) (product : s.numerator.mul sq = .ok numerator) :
    working.Approximates (2 * (k + 1)) numerator (a * t ^ (2 * (k + 1))) := by
  have power : a * t ^ (2 * (k + 1)) = a * t ^ (2 * k) * (t * t) := by ring
  rw [power]
  exact h.numerator.multiply working_digits_pos square (reported_eq_ok.1 product)

/-- The denominator gains one rounding, because its two factors are multiplied exactly. -/
theorem Follows.next_denominator {denominator : Decimal} (start : c ≤ 10) (few : k + 1 ≤ 1000)
    (h : s.Follows a t c M k)
    (grown : s.denominator.mul (ofInt ((c + 2 * k) * (c + 2 * k + 1) : ℕ)) = .ok denominator) :
    working.Approximates (k + 1) denominator (c.ascFactorial (2 * (k + 1))) := by
  have digit := working_digits_pos
  have short := (isWorking_natCast (factors_few start few)).digits_le
  have factor := Precision.Approximates.of_few (n := 0) digit short
  rw [value_ofInt, Int.cast_natCast] at factor
  rw [ascFactorial_add_two, Nat.cast_mul]
  exact h.denominator.multiply digit factor (reported_eq_ok.1 grown)

/-- A rounded product of positive factors does not vanish. -/
theorem value_denominator_ne_zero {denominator : Decimal} (some : 0 < c)
    (h : working.Approximates n denominator (c.ascFactorial k)) : denominator.value ≠ 0 := by
  obtain ⟨m, rfl⟩ := Nat.exists_eq_add_of_lt some
  rw [Ne, h.drift.eq_zero_iff working_digits_pos, Nat.zero_add]
  exact_mod_cast (Nat.ascFactorial_pos m k).ne'

/-- A term has the roundings of its numerator and its denominator, and that of the quotient. -/
theorem Follows.next_term {numerator denominator term : Decimal} (some : 0 < c)
    (above : working.Approximates (2 * k) numerator (a * t ^ (2 * k)))
    (below : working.Approximates k denominator (c.ascFactorial (2 * k)))
    (quotient : numerator.div denominator = .ok term) :
    working.Approximates (3 * k + 1) term (unsignedTerm a t c k) := by
  have count : 3 * k + 1 = 2 * k + k + 1 := by ring
  rw [count]
  exact above.divide working_digits_pos below (value_denominator_ne_zero some below)
    (reported_eq_ok.1 quotient)

/-- The roundings do not double a term. -/
theorem abs_term_le {term : Decimal} (few : k ≤ 1000) (bounded : |alternatingTerm a t c k| ≤ M)
    (h : working.Approximates (3 * k + 1) term (unsignedTerm a t c k)) : |term.value| ≤ 2 * M := by
  have grown := h.drift.abs_le_two_mul working_digits_pos (few_roundings (by omega))
  rw [abs_alternatingTerm] at bounded
  linarith

/-- A step takes in the next term. -/
theorem Follows.step (square : working.Approximates 1 sq (t * t)) (start : c ≤ 10) (some : 0 < c)
    (few : k + 1 ≤ 1000) (bounded : ∀ j, |alternatingTerm a t c j| ≤ M) (h : s.Follows a t c M k)
    (next : s.step sq = .ok s') : s'.Follows a t c M (k + 1) := by
  have digit := working_digits_pos
  obtain ⟨product, ⟨factors, fused, grown⟩, counted, quotient, joined, flipped⟩ := step_eq_ok.1 next
  have small := factors_few start few
  rw [h.count, fusedMultiplyAdd_self small] at fused
  obtain rfl := Except.ok.inj fused
  have numerator := h.next_numerator square product
  have denominator := h.next_denominator start few grown
  have term := Follows.next_term some numerator denominator quotient
  have lifted := lift_eq_self h.few
  have lifted' := lift_eq_self term.few
  refine ⟨numerator, denominator, ?_, term, ?_, ?_, ?_⟩
  · rw [h.count, add_two_eq (by omega)] at counted
    rw [← Except.ok.inj counted]
    rfl
  · refine IsWorking.digits_le ?_
    split at joined
    · exact yields_sub _ _ _ joined
    · exact yields_add _ _ _ joined
  · -- the sign of the term decides between a sum and a difference
    rw [h.subtracting] at joined
    by_cases even : Even k
    · rw [if_pos (decide_eq_true even)] at joined
      have answer := Precision.subtract_answers (p := working) s.sum s'.term digit
      rw [reported_eq_ok.1 joined, lifted, lifted', sub_eq_add_neg] at answer
      have odd : ¬Even (k + 1) := Nat.even_add_one.not.2 (not_not.2 even)
      rw [answer.value_eq]
      refine h.sum.step bounded few ?_
      rw [alternatingTerm_odd odd]
      exact term.drift.neg
    · rw [if_neg (by simpa using even)] at joined
      have answer := Precision.add_answers (p := working) s.sum s'.term digit
      rw [reported_eq_ok.1 joined, lifted, lifted'] at answer
      rw [answer.value_eq]
      refine h.sum.step bounded few ?_
      rw [alternatingTerm_even (Nat.even_add_one.2 even)]
      exact term.drift
  · rw [flipped, h.subtracting, ← decide_not]
    exact decide_eq_decide.2 Nat.even_add_one.symm

/-- Two factors of a denominator have at most eight digits together. -/
theorem within_factors (start : c ≤ 10) (some : 0 < c) (few : k + 1 ≤ 1000) :
    Within 8 (((c + 2 * k) * (c + 2 * k + 1) : ℕ) : ℚ) := by
  have top : (c + 2 * k) * (c + 2 * k + 1) ≤ 10 ^ 8 :=
    (Nat.mul_le_mul (show _ ≤ 3000 by omega) (show _ ≤ 3000 by omega)).trans (by norm_num)
  have bottom : 1 ≤ (c + 2 * k) * (c + 2 * k + 1) := Nat.mul_pos (by omega) (by omega)
  refine .inr ⟨?_, ?_⟩
  · rw [Nat.abs_cast]
    refine le_trans ?_ (Nat.one_le_cast.2 bottom)
    norm_num
  · rw [Nat.abs_cast]
    exact_mod_cast top

/-- The denominators stay within the bounds as long as the steps are counted in thousands. -/
theorem within_ascFactorial (start : c ≤ 10) (some : 0 < c) (few : k ≤ 1000) :
    Within (8 * k) (c.ascFactorial (2 * k) : ℚ) := by
  induction k with
  | zero => simpa using Within.one
  | succ k ih =>
    rw [ascFactorial_add_two, Nat.cast_mul, Nat.mul_succ]
    exact (ih (by omega)).mul (within_factors start some few)

/-- A step goes through: the parts of the next term are within the bounds, and the sum is a multiple
of a unit that is not too small. -/
theorem Follows.exists_step (square : working.Approximates 1 sq (t * t)) (start : c ≤ 10)
    (some : 0 < c) (few : k + 1 ≤ 1000) (bounded : ∀ j, |alternatingTerm a t c j| ≤ M)
    (moderate : M ≤ 10 ^ 100) (first : Within 136 a) (angle : Within 136 t)
    (grid : OnGrid (-300000) s.sum.value) (h : s.Follows a t c M k) :
    ∃ s', s.step sq = .ok s' ∧ OnGrid (-300000) s'.sum.value := by
  have digit := working_digits_pos
  have small := factors_few start few
  have size : 0 ≤ M := (abs_nonneg _).trans (bounded 0)
  have top : exponentBound.toNat = 999999 := rfl
  have places : working.digits = 136 := rfl
  have short := (isWorking_natCast small).digits_le
  obtain ⟨numerator, product, -⟩ : ∃ n, s.numerator.mul sq = .ok n ∧ _ := by
    refine exists_mul h.numerator.few square.few ?_
    have within_square := square.within (by omega) (angle.mul angle)
    have within_numerator := h.numerator.within (by omega) (first.mul (angle.pow (2 * k)))
    exact (within_numerator.mul within_square).mono (by omega)
  obtain ⟨denominator, grown, -⟩ :
      ∃ d, s.denominator.mul (ofInt ((c + 2 * k) * (c + 2 * k + 1) : ℕ)) = .ok d ∧ _ := by
    refine exists_mul h.denominator.few short ?_
    have within_denominator :=
      h.denominator.within (by omega) (within_ascFactorial start some (by omega))
    rw [value_ofInt, Int.cast_natCast]
    exact (within_denominator.mul (within_factors start some few)).mono (by omega)
  have above := h.next_numerator square product
  have below := h.next_denominator start few grown
  have within_above := above.within (by omega) (first.mul (angle.pow (2 * (k + 1))))
  have within_below := below.within (by omega) (within_ascFactorial start some few)
  have within_term := within_above.div within_below
  obtain ⟨term, quotient, rounded⟩ := exists_div above.few below.few
    (value_denominator_ne_zero some below) (within_term.mono (by omega))
  have next := Follows.next_term some above below quotient
  have term_grid : OnGrid (-300000) term.value := by
    rw [rounded]
    exact (within_term.onGrid_nearest (d := working.digits)).mono (by omega)
  have sum_le : |s.sum.value| + |term.value| ≤ 10 ^ 300000 := by
    have before := h.sum.abs_le bounded (by omega)
    have after := abs_term_le few (bounded (k + 1)) next
    have count : (k : ℚ) + 2 ≤ 1001 := by exact_mod_cast (by omega : k + 2 ≤ 1001)
    calc |s.sum.value| + |term.value| ≤ (k + 2) * M + 2 * M := add_le_add before after
      _ ≤ 1001 * 10 ^ 100 + 2 * 10 ^ 100 := by gcongr
      _ ≤ 10 ^ 104 := by norm_num
      _ ≤ 10 ^ 300000 := pow_le_pow_right₀ (by norm_num) (by omega)
  obtain ⟨sum, joined, sum_grid⟩ :
      ∃ σ, (if s.subtracting then s.sum.sub term else s.sum.add term) = .ok σ ∧
        OnGrid (-300000) σ.value := by
    split
    · have difference := grid.add term_grid.neg
      rw [← sub_eq_add_neg] at difference
      have fits := difference.within (e := 300000) ((abs_sub _ _).trans sum_le)
      obtain ⟨σ, joined, value⟩ := exists_sub h.few next.few (fits.mono (by omega))
      exact ⟨σ, joined, value ▸ difference.nearest _⟩
    · have total := grid.add term_grid
      have fits := total.within (e := 300000) ((abs_add_le _ _).trans sum_le)
      obtain ⟨σ, joined, value⟩ := exists_add h.few next.few (fits.mono (by omega))
      exact ⟨σ, joined, value ▸ total.nearest _⟩
  refine ⟨⟨sum, term, numerator, denominator, ofInt (c + 2 * k + 2 : ℕ), !s.subtracting⟩,
    step_eq_ok.2 ⟨product, ⟨_, ?_, grown⟩, ?_, quotient, joined, rfl⟩, sum_grid⟩
  · rw [h.count, fusedMultiplyAdd_self small]
  · rw [h.count, add_two_eq (by omega)]

/-! ## The run -/

/-- The threshold is the last of 136 places behind the point. -/
theorem value_termThreshold : termThreshold.value = 10 ^ (-136 : ℤ) := by
  rw [termThreshold, value_ofParts, Int.cast_one, one_mul]

/-- A small enough term ends the sum. -/
theorem Follows.isDone (few : k ≤ 1000) (h : s.Follows a t c M k)
    (small : |unsignedTerm a t c k| ≤ 5 * 10 ^ (-137 : ℤ)) : s.isDone = true := by
  have bound := abs_term_le few ((abs_alternatingTerm a t c k).trans_le small) h.term
  rw [AlternatingSum.isDone, decide_eq_true_iff, le_iff_value, value_abs, value_termThreshold]
  norm_num at bound ⊢
  linarith

/-- When the sum ends, the exact term is small. -/
theorem Follows.abs_unsignedTerm_le (few : k ≤ 1000) (h : s.Follows a t c M k)
    (done : s.isDone = true) : |unsignedTerm a t c k| ≤ 2 * 10 ^ (-136 : ℤ) := by
  have drift := h.term.drift.symm working_digits_pos
  have grown := drift.abs_le_two_mul working_digits_pos (few_roundings (by omega))
  rw [AlternatingSum.isDone, decide_eq_true_iff, le_iff_value, value_abs, value_termThreshold] at done
  linarith

/-- The sum is a loop with a limit, as `IsLoop` describes it. -/
theorem isLoop (sq : Decimal) : IsLoop (run sq) (step sq) isDone := by
  refine ⟨fun s => rfl, fun limit s => ?_⟩
  rw [run]
  rfl

section Run

variable {N limit : ℕ} (square : working.Approximates 1 sq (t * t)) (start : c ≤ 10) (some : 0 < c)
  (few : N ≤ 1000) (bounded : ∀ j, |alternatingTerm a t c j| ≤ M)
  (last : |unsignedTerm a t c N| ≤ 5 * 10 ^ (-137 : ℤ))

include square start some few bounded last

/-- A run that has an answer leaves the loop before its limit. -/
theorem Follows.run (enough : N ≤ limit) (h : s.Follows a t c M 0)
    (answer : AlternatingSum.run sq limit s = .ok s') :
    ∃ k, LeavesAfter (AlternatingSum.step sq) AlternatingSum.isDone k s (.ok s') := by
  obtain ⟨-, -, -, -, done⟩ := (isLoop sq).ends (I := Follows a t c M)
    (fun k s s' below h stepped => h.step square start some (by omega) bounded stepped)
    (fun s h => h.isDone few last) N.zero_le (by omega) h answer
  exact (isLoop sq).exists_leavesAfter done answer

/-- The loop is left, with an answer or with the error of a step. -/
theorem Follows.exists_leavesAfter (h : s.Follows a t c M 0) :
    ∃ k ≤ N, ∃ r, LeavesAfter (AlternatingSum.step sq) AlternatingSum.isDone k s r := by
  obtain ⟨k, inside, leaves⟩ := LeavesAfter.exists_of_keeps (I := Follows a t c M)
    (fun k s s' below h stepped => h.step square start some (by omega) bounded stepped)
    (fun s h => h.isDone few last) N.zero_le h
  exact ⟨k, by omega, leaves⟩

/-- Where the loop is left, the last term no longer matters; its index is the number of steps. -/
theorem Follows.leaves (h : s.Follows a t c M 0)
    (leaves : LeavesAfter (AlternatingSum.step sq) AlternatingSum.isDone k s (.ok s')) :
    k ≤ N ∧ s'.Follows a t c M k ∧ s'.isDone = true := by
  have kept := leaves.keeps (I := Follows a t c M)
    (fun k s s' below h stepped => h.step square start some (by omega) bounded stepped)
    (fun s h => h.isDone few last) N.zero_le h
  rwa [Nat.zero_add] at kept

/-- A run with moderate numbers has an answer. -/
theorem Follows.exists_run (moderate : M ≤ 10 ^ 100) (first : Within 136 a) (angle : Within 136 t)
    (enough : N ≤ limit) (h : s.Follows a t c M 0) (grid : OnGrid (-300000) s.sum.value) :
    ∃ s', AlternatingSum.run sq limit s = .ok s' ∧ OnGrid (-300000) s'.sum.value := by
  obtain ⟨s', k, answer, -, -, end_grid⟩ := (isLoop sq).exists_run
    (I := fun k s => s.Follows a t c M k ∧ OnGrid (-300000) s.sum.value)
    (fun k s below ⟨h, grid⟩ => by
      obtain ⟨s', stepped, next⟩ := h.exists_step square start some (by omega) bounded moderate
        first angle grid
      exact ⟨s', stepped, h.step square start some (by omega) bounded stepped, next⟩)
    (fun s h => h.1.isDone few last) N.zero_le (enough.trans_eq limit.zero_add.symm) ⟨h, grid⟩
  exact ⟨s', answer, end_grid⟩

end Run

end AlternatingSum

end Decimal

end Calculator
