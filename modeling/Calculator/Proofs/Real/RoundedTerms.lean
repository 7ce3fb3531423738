import Mathlib.Algebra.BigOperators.Intervals
import Mathlib.Algebra.Order.BigOperators.Group.Finset
import Calculator.Proofs.Real.Extent
import Calculator.Proofs.Real.PowerDrift
import Calculator.Proofs.Real.Parity

/-!
# Sums of rounded terms

A term of a power series is computed by products and quotients, so it is a number of roundings away
from the exact term. Each term joins the sum by a rounded addition. Where the terms do not exceed a
bound, the sum is off by this bound times the roundings that have gone into it, of which there are
at most as many as the square of the number of terms tells. The sums are computed by loops that end
at a term that no longer matters.
-/

namespace Calculator

open Precision (working exponentBound)

variable {d e k m n : ℕ} {q r x y M : ℚ} {a : ℕ → ℚ}

/-! ## Moderate numbers of roundings -/

theorem roundoff_working_le : roundoff working.digits ≤ 1 / 10 ^ 20 := by
  rw [roundoff_working]
  norm_num

theorem few_roundings (few : n ≤ 10 ^ 18) : 4 * n * roundoff working.digits ≤ 1 := by
  have count : (n : ℚ) ≤ 10 ^ 18 := by exact_mod_cast few
  have unit := roundoff_working_le
  calc 4 * n * roundoff working.digits ≤ 4 * 10 ^ 18 * (1 / 10 ^ 20) :=
        mul_le_mul (by linarith) unit (roundoff_pos _).le (by norm_num)
    _ ≤ 1 := by norm_num

theorem Drift.neg (h : Drift d n x y) : Drift d n (-x) (-y) := by
  obtain ⟨f, factor, rfl⟩ := h
  exact ⟨f, factor, (mul_neg f y).symm⟩

/-- A moderate number of roundings does not double a number. -/
theorem Drift.abs_le_two_mul (digit : 0 < d) (few : 4 * n * roundoff d ≤ 1) (h : Drift d n x y) :
    |x| ≤ 2 * |y| := by
  have some : 0 ≤ n * roundoff d := mul_nonneg n.cast_nonneg (roundoff_pos d).le
  have off := h.abs_sub_le digit (by linarith)
  have part := mul_le_mul_of_nonneg_right few (abs_nonneg y)
  have near := abs_sub_abs_le_abs_sub x y
  have pos := abs_nonneg y
  linarith

namespace Precision.Approximates

variable {p : Precision} {x y z : Decimal}

theorem divide (digit : 0 < p.digits) (hx : p.Approximates m x q) (hy : p.Approximates n y r)
    (nonzero : y.value ≠ 0) (h : p.divide x y = .ok z) : p.Approximates (m + n + 1) z (q / r) := by
  have answer := divide_answers (p := p) (a := x) digit nonzero
  rw [h, hx.value_lift, hy.value_lift] at answer
  refine ⟨?_, ?_⟩
  · unfold Precision.divide at h
    split at h
    · cases h
    · rw [check_digits h]
      exact Decimal.digits_ofPartsRounded_le _ _ digit
  · rw [Nat.add_comm]
    exact (Drift.of_answers digit answer).trans digit (hx.drift.div digit hy.drift)

/-- A few roundings do not take a moderate number out of the bounds. -/
theorem within (hx : working.Approximates n x q) (few : n ≤ 10 ^ 18) (h : Within e q) :
    Within (e + 1) x.value :=
  h.of_drift Decimal.working_digits_pos (few_roundings few) hx.drift

theorem neg (hx : p.Approximates n x q) : p.Approximates n (-x) (-q) := by
  refine ⟨?_, ?_⟩
  · rw [Decimal.digits_neg]
    exact hx.few
  · rw [Decimal.value_neg]
    exact hx.drift.neg

theorem mono (digit : 0 < p.digits) (hx : p.Approximates m x q) (le : m ≤ n) :
    p.Approximates n x q := by
  obtain ⟨k, rfl⟩ := Nat.exists_eq_add_of_le le
  exact ⟨hx.few, hx.drift.trans digit (.refl digit q)⟩

end Precision.Approximates

/-! ## Sums -/

/-- The number is the sum of the terms up to the one of index `k`, but for the roundings of the
terms and of the additions. -/
def Tallies (a : ℕ → ℚ) (M : ℚ) (k : ℕ) (s : ℚ) : Prop :=
  |s - ∑ j ∈ Finset.range (k + 1), a j| ≤ 4 * k * (k + 2) * roundoff working.digits * M

namespace Tallies

theorem start (a : ℕ → ℚ) (M : ℚ) : Tallies a M 0 (a 0) := by
  simp [Tallies]

theorem abs_sum_le (bounded : ∀ j, |a j| ≤ M) (n : ℕ) : |∑ j ∈ Finset.range n, a j| ≤ n * M := by
  calc |∑ j ∈ Finset.range n, a j| ≤ ∑ j ∈ Finset.range n, |a j| := Finset.abs_sum_le_sum_abs _ _
    _ ≤ ∑ _j ∈ Finset.range n, M := Finset.sum_le_sum fun j _ => bounded j
    _ = n * M := by rw [Finset.sum_const, Finset.card_range, nsmul_eq_mul]

/-- What the roundings amount to is less than the largest term. -/
theorem error_le (few : k ≤ 1000) (size : 0 ≤ M) :
    4 * k * (k + 2) * roundoff working.digits * M ≤ 1 / 100 * M := by
  have count : (k : ℚ) ≤ 1000 := by exact_mod_cast few
  have unit := roundoff_working_le
  have pos := roundoff_pos working.digits
  refine mul_le_mul_of_nonneg_right ?_ size
  calc 4 * (k : ℚ) * (k + 2) * roundoff working.digits
      ≤ 4 * 1000 * (1000 + 2) * (1 / 10 ^ 20) := by gcongr
    _ ≤ 1 / 100 := by norm_num

theorem abs_le {s : ℚ} (bounded : ∀ j, |a j| ≤ M) (few : k ≤ 1000) (h : Tallies a M k s) :
    |s| ≤ (k + 2) * M := by
  have size : 0 ≤ M := (abs_nonneg _).trans (bounded 0)
  have exact_sum := abs_sum_le bounded (k + 1)
  have error := h.trans (error_le few size)
  have triangle := abs_add_le (s - ∑ j ∈ Finset.range (k + 1), a j) (∑ j ∈ Finset.range (k + 1), a j)
  rw [sub_add_cancel] at triangle
  push_cast at exact_sum
  linarith

/-- The next term, by a rounded addition. -/
theorem step {τ s : ℚ} (bounded : ∀ j, |a j| ≤ M) (few : k + 1 ≤ 1000)
    (drift : Drift working.digits (3 * (k + 1) + 1) τ (a (k + 1))) (h : Tallies a M k s) :
    Tallies a M (k + 1) (nearest working.digits (s + τ)) := by
  have size : 0 ≤ M := (abs_nonneg _).trans (bounded 0)
  have pos := roundoff_pos working.digits
  have unit := mul_nonneg pos.le size
  have count := k.cast_nonneg (α := ℚ)
  have term : |τ - a (k + 1)| ≤ 2 * (3 * (k + 1) + 1) * (roundoff working.digits * M) := by
    have rounded := few_roundings (n := 3 * (k + 1) + 1) (by omega)
    have off := drift.abs_sub_le Decimal.working_digits_pos (by linarith)
    push_cast at off
    have scaled := mul_le_mul_of_nonneg_left (bounded (k + 1)) pos.le
    have more := mul_le_mul_of_nonneg_left scaled (show (0 : ℚ) ≤ 2 * (3 * (k + 1) + 1) by positivity)
    linarith
  have close : |s + τ - ∑ j ∈ Finset.range (k + 2), a j| ≤
      (4 * k * (k + 2) + 2 * (3 * (k + 1) + 1)) * (roundoff working.digits * M) := by
    rw [Tallies] at h
    rw [Finset.sum_range_succ, add_sub_add_comm]
    refine (abs_add_le _ _).trans ?_
    linarith
  have sum : |s + τ| ≤ (k + 3) * M := by
    have exact_sum := abs_sum_le bounded (k + 2)
    have triangle := abs_add_le (s + τ - ∑ j ∈ Finset.range (k + 2), a j)
      (∑ j ∈ Finset.range (k + 2), a j)
    rw [sub_add_cancel] at triangle
    have below := error_le few size
    have smaller := mul_le_mul_of_nonneg_right
      (show 4 * (k : ℚ) * (k + 2) + 2 * (3 * (k + 1) + 1) ≤ 4 * (k + 1) * (k + 1 + 2) by linarith) unit
    push_cast at exact_sum below
    linarith
  have rounding := abs_nearest_sub_le (d := working.digits) (q := s + τ)
  have scaled := mul_le_mul_of_nonneg_left sum pos.le
  have triangle := abs_sub_le (nearest working.digits (s + τ)) (s + τ)
    (∑ j ∈ Finset.range (k + 2), a j)
  have grows := mul_le_mul_of_nonneg_right
    (show (k : ℚ) + 3 + (4 * k * (k + 2) + 2 * (3 * (k + 1) + 1)) ≤ 4 * (k + 1) * (k + 1 + 2) by
      linarith) unit
  rw [Tallies]
  push_cast
  linarith

end Tallies

/-! ## Loops -/

/-- A loop that steps until it is done, or until its limit is used up. -/
structure IsLoop {ε σ : Type} (run : ℕ → σ → Except ε σ) (step : σ → Except ε σ) (isDone : σ → Bool) :
    Prop where
  zero (s : σ) : run 0 s = .ok s
  succ (limit : ℕ) (s : σ) : run (limit + 1) s = if isDone s then .ok s else step s >>= run limit

namespace IsLoop

variable {ε σ : Type} {run : ℕ → σ → Except ε σ} {step : σ → Except ε σ} {isDone : σ → Bool}
  {I : ℕ → σ → Prop} {N limit : ℕ} {s s' : σ}

/-- An answer comes from a state that is done, and every step up to it has kept the invariant. -/
theorem ends (loop : IsLoop run step isDone)
    (keeps : ∀ k s s', k < N → I k s → step s = .ok s' → I (k + 1) s')
    (last : ∀ s, I N s → isDone s = true) (index : k ≤ N) (enough : N ≤ k + limit) (h : I k s)
    (answer : run limit s = .ok s') : ∃ j, k ≤ j ∧ j ≤ N ∧ I j s' ∧ isDone s' = true := by
  induction limit generalizing k s with
  | zero =>
    obtain rfl : k = N := by omega
    rw [loop.zero] at answer
    cases answer
    exact ⟨k, le_rfl, le_rfl, h, last _ h⟩
  | succ limit ih =>
    rw [loop.succ] at answer
    split at answer
    · rename_i done
      cases answer
      exact ⟨k, le_rfl, index, h, done⟩
    · rename_i more
      obtain ⟨next, stepped, rest⟩ := bind_eq_ok.1 answer
      have below : k ≠ N := by
        rintro rfl
        exact more (last s h)
      obtain ⟨j, later, inside, kept, done⟩ :=
        ih (by omega) (by omega) (keeps k s next (by omega) h stepped) rest
      exact ⟨j, by omega, inside, kept, done⟩

/-- If every step goes through, there is an answer. -/
theorem exists_run (loop : IsLoop run step isDone)
    (goes : ∀ k s, k < N → I k s → ∃ s', step s = .ok s' ∧ I (k + 1) s')
    (last : ∀ s, I N s → isDone s = true) (index : k ≤ N) (enough : N ≤ k + limit) (h : I k s) :
    ∃ s' j, run limit s = .ok s' ∧ j ≤ N ∧ I j s' := by
  induction limit generalizing k s with
  | zero => exact ⟨s, k, loop.zero s, index, h⟩
  | succ limit ih =>
    rw [loop.succ]
    split
    · exact ⟨s, k, rfl, index, h⟩
    · rename_i more
      have below : k ≠ N := by
        rintro rfl
        exact more (last s h)
      obtain ⟨next, stepped, kept⟩ := goes k s (by omega) h
      obtain ⟨s', j, rest, inside, held⟩ := ih (by omega) (by omega) kept
      exact ⟨s', j, bind_eq_ok.2 ⟨next, stepped, rest⟩, inside, held⟩

end IsLoop

/-- Without a limit, the loop leaves after `k` steps with this answer: the first state that is done,
or the error of the last step. -/
inductive LeavesAfter {ε σ : Type} (step : σ → Except ε σ) (isDone : σ → Bool) :
    ℕ → σ → Except ε σ → Prop where
  | done {s : σ} (last : isDone s = true) : LeavesAfter step isDone 0 s (.ok s)
  | failed {s : σ} {e : ε} (more : isDone s = false) (failure : step s = .error e) :
    LeavesAfter step isDone 1 s (.error e)
  | next {k : ℕ} {s s' : σ} {r : Except ε σ} (more : isDone s = false) (stepped : step s = .ok s')
    (rest : LeavesAfter step isDone k s' r) : LeavesAfter step isDone (k + 1) s r

section LeavesAfter

variable {ε σ : Type} {run : ℕ → σ → Except ε σ} {step : σ → Except ε σ} {isDone : σ → Bool}
  {I : ℕ → σ → Prop} {N j limit : ℕ} {s s' : σ} {r : Except ε σ}

/-- A limit that is not below the number of steps makes no difference. -/
theorem IsLoop.run_of_leavesAfter (loop : IsLoop run step isDone)
    (h : LeavesAfter step isDone k s r) (enough : k ≤ limit) : run limit s = r := by
  induction h generalizing limit with
  | done last =>
    cases limit with
    | zero => exact loop.zero _
    | succ limit => rw [loop.succ, if_pos last]
  | failed more failure =>
    obtain ⟨limit, rfl⟩ := Nat.exists_eq_succ_of_ne_zero (by omega : limit ≠ 0)
    rw [loop.succ, if_neg (by simp [more]), failure]
    rfl
  | next more stepped rest ih =>
    obtain ⟨limit, rfl⟩ := Nat.exists_eq_succ_of_ne_zero (by omega : limit ≠ 0)
    rw [loop.succ, if_neg (by simp [more]), stepped]
    exact ih (by omega)

/-- A run that ends with a state that is done has left the loop. -/
theorem IsLoop.exists_leavesAfter (loop : IsLoop run step isDone) (last : isDone s' = true)
    (answer : run limit s = .ok s') : ∃ k, LeavesAfter step isDone k s (.ok s') := by
  induction limit generalizing s with
  | zero =>
    rw [loop.zero] at answer
    cases answer
    exact ⟨0, .done last⟩
  | succ limit ih =>
    rw [loop.succ] at answer
    split at answer
    · rename_i done
      cases answer
      exact ⟨0, .done done⟩
    · rename_i more
      obtain ⟨next, stepped, rest⟩ := bind_eq_ok.1 answer
      obtain ⟨k, leaves⟩ := ih rest
      exact ⟨k + 1, .next (Bool.eq_false_iff.2 more) stepped leaves⟩

/-- A loop whose invariant comes to say that all is done is left by then, if not by a failing step. -/
theorem LeavesAfter.exists_of_keeps
    (keeps : ∀ j s s', j < N → I j s → step s = .ok s' → I (j + 1) s')
    (last : ∀ s, I N s → isDone s = true) (index : j ≤ N) (h : I j s) :
    ∃ k, j + k ≤ N ∧ ∃ r, LeavesAfter step isDone k s r := by
  induction remaining : N - j generalizing j s with
  | zero =>
    obtain rfl : j = N := by omega
    exact ⟨0, le_rfl, .ok s, .done (last s h)⟩
  | succ n ih =>
    cases finished : isDone s with
    | true => exact ⟨0, index, .ok s, .done finished⟩
    | false =>
      cases stepped : step s with
      | error e => exact ⟨1, by omega, .error e, .failed finished stepped⟩
      | ok next =>
        obtain ⟨k, inside, r, leaves⟩ :=
          ih (by omega) (keeps j s next (by omega) h stepped) (by omega)
        exact ⟨k + 1, by omega, r, .next finished stepped leaves⟩

/-- The invariant holds where the loop is left, which is at the latest where it says that all is
done. -/
theorem LeavesAfter.keeps (leaves : LeavesAfter step isDone k s (.ok s'))
    (keeps : ∀ j s s', j < N → I j s → step s = .ok s' → I (j + 1) s')
    (last : ∀ s, I N s → isDone s = true) (index : j ≤ N) (h : I j s) :
    j + k ≤ N ∧ I (j + k) s' ∧ isDone s' = true := by
  generalize answer : Except.ok s' = r at leaves
  induction leaves generalizing j with
  | done done =>
    cases answer
    exact ⟨index, h, done⟩
  | failed => cases answer
  | @next k s next r more stepped rest ih =>
    have below : j ≠ N := by
      rintro rfl
      rw [last s h] at more
      cases more
    obtain ⟨inside, kept, done⟩ := ih (by omega) (keeps j s next (by omega) h stepped) answer
    rw [Nat.add_right_comm] at inside kept
    exact ⟨inside, kept, done⟩

end LeavesAfter

end Calculator
