import Mathlib.Analysis.SpecialFunctions.Trigonometric.Series
import Calculator.Proofs.Real.Constants
import Calculator.Proofs.Real.PartialSums

/-!
# How exact sine and cosine are

A sum ends when its last term is small, and by then the terms halve at least: the factors of the
denominators exceed the square of the angle. So what is left of the series does not matter, and the
sum is off by its roundings. Whole turns of the rounded ratio of a circle are taken off exactly, and
the ratio is off by its last rounding; so an angle that is a rounded multiple of half a turn has a sine
as small as its rounding. The squares of sine and cosine add up to one but for what is shown as zero.
-/

namespace Calculator.Decimal

open Precision (working)

variable {x y r : Decimal} {i k : ℕ} {t : ℚ} {V : ℝ}

/-! ## The sums -/

theorem cast_alternatingTerm (parity : i ≤ 1) (t : ℚ) (n : ℕ) :
    ((alternatingTerm (t ^ i) t (i + 1) n : ℚ) : ℝ) =
      (-1) ^ n * (t : ℝ) ^ (i + 2 * n) / (i + 2 * n).factorial := by
  rw [alternatingTerm_pow parity]
  push_cast
  rfl

theorem unsignedTerm_succ (parity : i ≤ 1) (t : ℚ) (n : ℕ) :
    unsignedTerm (t ^ i) t (i + 1) (n + 1) =
      t ^ 2 / ((i + 2 * n + 1) * (i + 2 * n + 2)) * unsignedTerm (t ^ i) t (i + 1) n := by
  have index : i + 2 * (n + 1) = i + 2 * n + 1 + 1 := by ring
  rw [unsignedTerm_pow parity, unsignedTerm_pow parity, index, Nat.factorial_succ,
    Nat.factorial_succ, pow_succ, pow_succ]
  push_cast
  field_simp
  ring

/-- A small term stands behind the powers that exceed the factors of their denominators. -/
theorem eight_le_of_small_term (parity : i ≤ 1) (large : 1 / 2 < |t|)
    (last : |unsignedTerm (t ^ i) t (i + 1) k| ≤ 2 * 10 ^ (-136 : ℤ)) : 8 ≤ i + 2 * k := by
  by_contra few
  have power : (1 / 2) ^ 7 ≤ |t| ^ (i + 2 * k) :=
    calc (1 / 2 : ℚ) ^ 7 ≤ (1 / 2) ^ (i + 2 * k) :=
          pow_le_pow_of_le_one (by norm_num) (by norm_num) (by omega)
      _ ≤ |t| ^ (i + 2 * k) := pow_le_pow_left₀ (by norm_num) large.le _
  have factorial : ((i + 2 * k).factorial : ℚ) ≤ 5040 := by
    exact_mod_cast (Nat.factorial_le (by omega : i + 2 * k ≤ 7)).trans_eq rfl
  rw [unsignedTerm_pow parity, abs_div, abs_pow, Nat.abs_cast,
    div_le_iff₀ (by positivity)] at last
  norm_num at last power
  linarith

theorem abs_unsignedTerm_succ_le (parity : i ≤ 1) (small : |t| ≤ 63 / 10)
    (last : |unsignedTerm (t ^ i) t (i + 1) k| ≤ 2 * 10 ^ (-136 : ℤ)) {n : ℕ} (later : k ≤ n) :
    |unsignedTerm (t ^ i) t (i + 1) (n + 1)| ≤ 1 / 2 * |unsignedTerm (t ^ i) t (i + 1) n| := by
  have count : (k : ℚ) ≤ n := by exact_mod_cast later
  have half : t ^ 2 / ((i + 2 * n + 1) * (i + 2 * n + 2)) ≤ 1 / 2 := by
    rw [div_le_iff₀ (by positivity), ← sq_abs]
    rcases le_or_gt |t| (1 / 2) with tiny | large
    · have square := pow_le_pow_left₀ (abs_nonneg t) tiny 2
      have one : (0 : ℚ) ≤ i + 2 * n := by positivity
      nlinarith
    · have square := pow_le_pow_left₀ (abs_nonneg t) small 2
      have eight : (8 : ℚ) ≤ i + 2 * n := by
        exact_mod_cast (eight_le_of_small_term parity large last).trans (by omega)
      nlinarith
  rw [unsignedTerm_succ parity, abs_mul, abs_of_nonneg (by positivity)]
  exact mul_le_mul_of_nonneg_right half (abs_nonneg _)

/-- Where a sum has ended it is off by its roundings. -/
theorem abs_series_sub_le {angle first : Decimal} (parity : i ≤ 1) (ha : angle.IsWorking)
    (hf : first.IsWorking) (value : first.value = angle.value ^ i)
    (small : |angle.value| ≤ 63 / 10) (h : alternatingSeries first angle (ofInt (i + 1 : ℕ)) = .ok r)
    (exact_sum : HasSum (fun n : ℕ => (-1) ^ n * (angle.value : ℝ) ^ (i + 2 * n) /
      (i + 2 * n).factorial) V) : |(r.value : ℝ) - V| ≤ 10 ^ (-128 : ℤ) := by
  obtain ⟨k, below, s, follows, done, rfl⟩ := alternatingSeries_follows parity ha hf value small h
  have last := follows.abs_unsignedTerm_le (by omega) done
  simp only [← cast_alternatingTerm parity] at exact_sum
  have tail := Series.abs_tail_le (m := k) exact_sum (by norm_num : (0 : ℝ) ≤ 1 / 2) (by norm_num)
    fun n later => by
      have falls := Rat.cast_le (K := ℝ).2 (abs_unsignedTerm_succ_le parity small last later)
      rw [← abs_alternatingTerm, ← abs_alternatingTerm] at falls
      push_cast at falls
      exact falls
  have tally := follows.abs_sum_sub_le below
  rw [← abs_alternatingTerm] at last
  have sum_near := Rat.cast_le (K := ℝ).2 tally
  have last_small := Rat.cast_le (K := ℝ).2 last
  push_cast [Finset.sum_range_succ] at sum_near last_small
  generalize ∑ j ∈ Finset.range k, ((alternatingTerm (angle.value ^ i) angle.value (i + 1) j : ℚ) : ℝ)
    = partial_sum at tail sum_near
  generalize ((alternatingTerm (angle.value ^ i) angle.value (i + 1) k : ℚ) : ℝ) = term
    at tail sum_near last_small
  have split : (s.sum.value : ℝ) - V =
      (s.sum.value - (partial_sum + term)) + (term - (V - partial_sum)) := by ring
  have rest := abs_sub term (V - partial_sum)
  rw [split]
  refine (abs_add_le _ _).trans ?_
  norm_num at tail sum_near last_small ⊢
  linarith

/-- The sine and the cosine of a reduced angle, before a very small one is shown as zero. -/
theorem abs_sine_series_sub_le {angle : Decimal} (ha : angle.IsWorking)
    (small : |angle.value| ≤ 63 / 10) (h : alternatingSeries angle angle 2 = .ok r) :
    |(r.value : ℝ) - Real.sin angle.value| ≤ 10 ^ (-128 : ℤ) := by
  refine abs_series_sub_le (i := 1) le_rfl ha ha (pow_one _).symm small h ?_
  simp only [Nat.add_comm 1]
  exact Real.hasSum_sin angle.value

theorem abs_cosine_series_sub_le {angle : Decimal} (ha : angle.IsWorking)
    (small : |angle.value| ≤ 63 / 10) (h : alternatingSeries 1 angle 1 = .ok r) :
    |(r.value : ℝ) - Real.cos angle.value| ≤ 10 ^ (-128 : ℤ) := by
  refine abs_series_sub_le (i := 0) (by decide) ha isWorking_one
    (value_one.trans (pow_zero _).symm) small h ?_
  simp only [Nat.zero_add]
  exact Real.hasSum_cos angle.value

/-! ## Half turns -/

/-- An angle near a multiple of half a turn of the rounded ratio is as near to one of the exact ratio,
once its whole turns are taken off. -/
theorem exists_half_turns {angle : Decimal} (hx : x.IsWorking)
    (near : |x.value - k * pi.value| ≤ 1) (reduced : x.reduceAngle = .ok angle) :
    ∃ η : ℝ, |η| ≤ |((x.value - k * pi.value : ℚ) : ℝ)| + 2 * 10 ^ (-135 : ℤ) ∧
      Real.sin angle.value = (-1) ^ k * Real.sin η ∧
      Real.cos angle.value = (-1) ^ k * Real.cos η := by
  obtain ⟨rest, smaller⟩ := value_reduceAngle hx reduced
  have pi_pos := lt_value_pi
  generalize integerPart (x.value / (2 * pi.value)) = N at rest
  -- less than a whole turn is left, so at most two half turns are
  have few : |(k : ℤ) - 2 * N| ≤ 2 := by
    have turns : angle.value = ((k : ℤ) - 2 * N : ℤ) * pi.value + (x.value - k * pi.value) := by
      rw [rest]
      push_cast
      ring
    have product : |(((k : ℤ) - 2 * N : ℤ) : ℚ)| * pi.value < 3 * pi.value := by
      have triangle := abs_sub angle.value (x.value - k * pi.value)
      have half : angle.value - (x.value - k * pi.value) =
          ((k : ℤ) - 2 * N : ℤ) * pi.value := by linarith
      rw [half, abs_mul, abs_of_pos (by linarith : 0 < pi.value)] at triangle
      linarith
    have count := lt_of_mul_lt_mul_right product (by linarith)
    have whole : |(k : ℤ) - 2 * N| < 3 := by exact_mod_cast count
    omega
  refine ⟨(x.value - k * pi.value : ℚ) + ((k : ℤ) - 2 * N : ℤ) * (pi.value - Real.pi), ?_, ?_⟩
  · have ratio := abs_pi_sub_le
    have count : |(((k : ℤ) - 2 * N : ℤ) : ℝ)| ≤ 2 := by exact_mod_cast few
    have product := mul_le_mul count ratio (abs_nonneg _) (by norm_num)
    rw [← abs_mul] at product
    refine (abs_add_le _ _).trans ?_
    push_cast at product ⊢
    linarith
  · have angle_eq : (angle.value : ℝ) = (x.value - k * pi.value : ℚ) +
        ((k : ℤ) - 2 * N : ℤ) * (pi.value - Real.pi) + ((k : ℤ) - 2 * N : ℤ) * Real.pi := by
      have real := congrArg (Rat.cast : ℚ → ℝ) rest
      push_cast at real ⊢
      rw [real]
      ring
    have sign : (-1 : ℝ) ^ ((k : ℤ) - 2 * N) = (-1) ^ k := by
      rw [zpow_sub₀ (by norm_num), zpow_mul, zpow_natCast]
      norm_num
    rw [angle_eq, Real.sin_add_int_mul_pi, Real.cos_add_int_mul_pi, sign]
    exact ⟨rfl, rfl⟩

/-! ## What is shown as zero -/

/-- A number that rounds to less than the threshold becomes zero, and any other one is kept. -/
theorem snapToZero_eq (h : x.snapToZero = .ok y) :
    y = if |x.value| < (10 ^ 50 - 1 / 2) * 10 ^ (-100 : ℤ) then zero else x := by
  obtain ⟨shown, rounded, last⟩ := bind_eq_ok.1 h
  have answer := Precision.round_answers (p := ⟨50⟩) x (by decide)
  rw [reported_eq_ok.1 rounded] at answer
  have threshold : shownThreshold.value = ((10 ^ 50 : ℕ) : ℚ) * 10 ^ (-100 : ℤ) := by
    rw [shownThreshold, value_ofParts]
    norm_num
  have smaller : shown.abs < shownThreshold ↔
      |x.value| < (10 ^ 50 - 1 / 2) * 10 ^ (-100 : ℤ) := by
    rw [lt_iff_value, value_abs, answer.value_eq, threshold, abs_nearest]
    by_cases vanishes : x.value = 0
    · rw [vanishes, abs_zero, nearest_zero]
      norm_num
    · have place := le_nearest_iff (d := 50) (k := 10 ^ 50) (e := -100) (by decide) (by decide) le_rfl
        (abs_pos.2 vanishes)
      rw [← not_le, place, not_le]
      push_cast
      rfl
  rw [← Except.ok.inj last]
  exact if_congr smaller rfl rfl

theorem snapToZero_eq_self (large : 1 / 10 ≤ |x.value|) (h : x.snapToZero = .ok y) : y = x := by
  rw [snapToZero_eq h, if_neg]
  intro small
  exact absurd large (not_le.2 (small.trans (by norm_num)))

/-- The sine of an angle is shown as zero if it is close enough to a multiple of half a turn. -/
theorem sin_eq_zero_of_near (hx : x.IsWorking)
    (near : |x.value - k * pi.value| ≤ 10 ^ (-50 : ℤ) - 10 ^ (-100 : ℤ)) (h : x.sin = .ok y) :
    y = zero := by
  obtain ⟨angle, reduced, sum, series, snapped⟩ := sin_eq_ok.1 h
  have ha := yields_reduceAngle x angle reduced
  have close : |x.value - k * pi.value| ≤ 1 := near.trans (by norm_num)
  obtain ⟨η, small, sine, -⟩ := exists_half_turns hx close reduced
  have sum_near := abs_sine_series_sub_le ha (lt_turn (value_reduceAngle hx reduced).2) series
  have real := Rat.cast_le (K := ℝ).2 near
  have size : |((sum.value : ℚ) : ℝ)| ≤ 10 ^ (-50 : ℤ) - 10 ^ (-100 : ℤ) + 10 ^ (-127 : ℤ) := by
    have sine_le : |Real.sin angle.value| ≤ |η| := by
      rw [sine, abs_mul, abs_neg_one_pow, one_mul]
      exact Real.abs_sin_le_abs
    have triangle := abs_add_le (sum.value - Real.sin angle.value) (Real.sin angle.value)
    rw [sub_add_cancel] at triangle
    push_cast at real small
    norm_num at real small sum_near ⊢
    linarith
  have below : |sum.value| < (10 ^ 50 - 1 / 2) * 10 ^ (-100 : ℤ) := by
    have cast : |sum.value| ≤ 10 ^ (-50 : ℤ) - 10 ^ (-100 : ℤ) + 10 ^ (-127 : ℤ) := by
      refine Rat.cast_le (K := ℝ).1 ?_
      push_cast
      exact size
    refine cast.trans_lt ?_
    norm_num
  rw [snapToZero_eq snapped, if_pos below]

theorem abs_cos_sub_one_le {ε η : ℝ} (small : |η| ≤ |ε| + 2 * 10 ^ (-135 : ℤ)) (bounded : |ε| ≤ 1) :
    |Real.cos η - 1| ≤ ε ^ 2 / 2 + 10 ^ (-128 : ℤ) := by
  have below := Real.one_sub_sq_div_two_le_cos (x := η)
  have above := Real.cos_le_one η
  have square : η ^ 2 ≤ ε ^ 2 + 10 ^ (-128 : ℤ) := by
    obtain ⟨d, nonneg, tiny, close⟩ : ∃ d : ℝ, 0 ≤ d ∧ d ≤ 10 ^ (-130 : ℤ) ∧ |η| ≤ |ε| + d :=
      ⟨2 * 10 ^ (-135 : ℤ), by positivity, by norm_num, small⟩
    have one : d ≤ 1 := tiny.trans (by norm_num)
    calc η ^ 2 = |η| ^ 2 := (sq_abs η).symm
      _ ≤ (|ε| + d) ^ 2 := pow_le_pow_left₀ (abs_nonneg η) close 2
      _ = ε ^ 2 + d * (2 * |ε| + d) := by
          rw [add_sq, sq_abs]
          ring
      _ ≤ ε ^ 2 + 10 ^ (-130 : ℤ) * 3 := by
          gcongr
          linarith
      _ ≤ ε ^ 2 + 10 ^ (-128 : ℤ) := by
          gcongr
          norm_num
  rw [abs_of_nonpos (by linarith)]
  norm_num at square ⊢
  linarith

/-- Its cosine is close to one or minus one. -/
theorem abs_cos_sub_le_of_near (hx : x.IsWorking)
    (near : |x.value - k * pi.value| ≤ 10 ^ (-50 : ℤ) - 10 ^ (-100 : ℤ)) (h : x.cos = .ok y) :
    |(-1) ^ k * (y.value : ℝ) - 1| ≤
      ((x.value - k * pi.value : ℚ) : ℝ) ^ 2 / 2 + 2 * 10 ^ (-128 : ℤ) := by
  obtain ⟨angle, reduced, sum, series, snapped⟩ := cos_eq_ok.1 h
  have ha := yields_reduceAngle x angle reduced
  have close : |x.value - k * pi.value| ≤ 1 := near.trans (by norm_num)
  obtain ⟨η, small, -, cosine⟩ := exists_half_turns hx close reduced
  have sum_near := abs_cosine_series_sub_le ha (lt_turn (value_reduceAngle hx reduced).2) series
  have bounded : |((x.value - k * pi.value : ℚ) : ℝ)| ≤ 1 := by exact_mod_cast close
  generalize ((x.value - k * pi.value : ℚ) : ℝ) = ε at small bounded ⊢
  have turned : |(-1) ^ k * (sum.value : ℝ) - Real.cos η| ≤ 10 ^ (-128 : ℤ) := by
    have unit : (-1 : ℝ) ^ k * (-1) ^ k = 1 := by rw [← mul_pow]; norm_num
    have split : (-1) ^ k * (sum.value : ℝ) - Real.cos η =
        (-1) ^ k * (sum.value - Real.cos angle.value) := by
      rw [cosine, mul_sub, ← mul_assoc, unit, one_mul]
    rw [split, abs_mul, abs_neg_one_pow, one_mul]
    exact sum_near
  have total : |(-1) ^ k * (sum.value : ℝ) - 1| ≤ ε ^ 2 / 2 + 2 * 10 ^ (-128 : ℤ) := by
    have one_sub := abs_cos_sub_one_le small bounded
    refine (abs_sub_le _ (Real.cos η) _).trans ((add_le_add turned one_sub).trans_eq ?_)
    ring
  have large : 1 / 10 ≤ |sum.value| := by
    have square : ε ^ 2 ≤ 1 := (sq_le_one_iff_abs_le_one ε).2 bounded
    have apart := total.trans (by norm_num; linarith :
      ε ^ 2 / 2 + 2 * 10 ^ (-128 : ℤ) ≤ 9 / 10)
    have triangle := abs_sub_abs_le_abs_sub 1 ((-1) ^ k * (sum.value : ℝ))
    rw [abs_one, abs_sub_comm, abs_mul, abs_neg_one_pow, one_mul] at triangle
    have real : ((1 / 10 : ℚ) : ℝ) ≤ |(sum.value : ℝ)| := by
      push_cast
      linarith
    exact_mod_cast real
  rw [snapToZero_eq_self large snapped]
  exact total

/-! ## The Pythagorean identity -/

/-- A number that is shown as zero has a square that is no larger than the places that are hidden. -/
theorem abs_sq_sub_sq_le_of_snapped (near : |(x.value : ℝ) - V| ≤ 10 ^ (-128 : ℤ)) (bounded : |V| ≤ 1)
    (h : x.snapToZero = .ok y) : |(y.value : ℝ) ^ 2 - V ^ 2| ≤ 2 * 10 ^ (-100 : ℤ) := by
  rw [snapToZero_eq h]
  split
  · rename_i small
    have cast : |(x.value : ℝ)| ≤ (10 ^ 50 - 1 / 2) * 10 ^ (-100 : ℤ) := by
      have real := Rat.cast_le (K := ℝ).2 small.le
      push_cast at real
      exact real
    have size : |V| ≤ 10 ^ (-50 : ℤ) := by
      have triangle := abs_sub_abs_le_abs_sub V x.value
      rw [abs_sub_comm] at triangle
      norm_num at cast near ⊢
      linarith
    have square := pow_le_pow_left₀ (abs_nonneg V) size 2
    rw [value_zero, Rat.cast_zero, zero_pow two_ne_zero, zero_sub, abs_neg, abs_pow]
    exact square.trans (by norm_num)
  · have total : |(x.value : ℝ) + V| ≤ 3 := by
      have split : (x.value : ℝ) + V = (x.value - V) + 2 * V := by ring
      rw [split]
      refine (abs_add_le _ _).trans ?_
      rw [abs_mul, abs_two]
      norm_num at near
      linarith
    calc |(x.value : ℝ) ^ 2 - V ^ 2| = |(x.value : ℝ) + V| * |x.value - V| := by
          rw [sq_sub_sq, abs_mul]
      _ ≤ 3 * 10 ^ (-128 : ℤ) := mul_le_mul total near (abs_nonneg _) (by norm_num)
      _ ≤ 2 * 10 ^ (-100 : ℤ) := by norm_num

/-- The squares of a sine and a cosine add up to one; most of what they lack is the square of the one
that is shown as zero. -/
theorem sin_sq_add_cos_sq_near_one {s c : Decimal} (hx : x.IsWorking) (sine : x.sin = .ok s)
    (cosine : x.cos = .ok c) : |s.value ^ 2 + c.value ^ 2 - 1| ≤ 10 ^ (-99 : ℤ) := by
  obtain ⟨angle, reduced, p, sine_sum, sine_shown⟩ := sin_eq_ok.1 sine
  obtain ⟨angle', reduced', q, cosine_sum, cosine_shown⟩ := cos_eq_ok.1 cosine
  obtain rfl : angle = angle' := Except.ok.inj (reduced.symm.trans reduced')
  have ha := yields_reduceAngle x angle reduced
  have small := lt_turn (value_reduceAngle hx reduced).2
  have first := abs_sq_sub_sq_le_of_snapped (abs_sine_series_sub_le ha small sine_sum)
    (Real.abs_sin_le_one _) sine_shown
  have second := abs_sq_sub_sq_le_of_snapped (abs_cosine_series_sub_le ha small cosine_sum)
    (Real.abs_cos_le_one _) cosine_shown
  have split : (s.value : ℝ) ^ 2 + c.value ^ 2 - 1 =
      (s.value ^ 2 - Real.sin angle.value ^ 2) + (c.value ^ 2 - Real.cos angle.value ^ 2) := by
    have unit := Real.sin_sq_add_cos_sq (angle.value : ℝ)
    linarith
  have total : |(s.value : ℝ) ^ 2 + c.value ^ 2 - 1| ≤ 10 ^ (-99 : ℤ) := by
    rw [split]
    refine (abs_add_le _ _).trans ((add_le_add first second).trans ?_)
    norm_num
  refine Rat.cast_le (K := ℝ).1 ?_
  push_cast
  exact total

/-- The terms of the sums for six grow to sixty-five before they fall. -/
theorem sin_sq_add_cos_sq_near_one_six : IsWorking 6 ∧ ∃ s c, (6 : Decimal).sin = .ok s ∧
    (6 : Decimal).cos = .ok c ∧ |s.value ^ 2 + c.value ^ 2 - 1| ≤ 10 ^ (-99 : ℤ) := by
  have six : IsWorking 6 := by decide
  have bounded : |(6 : Decimal).value| ≤ 10 ^ 100 := by
    rw [value_ofNat]
    norm_num
  have square : (6 : Decimal).sqr = .ok 36 := by decide +kernel
  have half : (36 : Decimal).div 2 = .ok 18 := by decide +kernel
  obtain ⟨s, sine⟩ := (exists_sin_iff six bounded).2 ⟨36, square⟩
  obtain ⟨c, cosine⟩ := (exists_cos_iff six bounded).2 ⟨36, 18, square, half⟩
  exact ⟨six, s, c, sine, cosine, sin_sq_add_cos_sq_near_one six sine cosine⟩

end Calculator.Decimal
