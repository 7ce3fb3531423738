import Mathlib.Tactic.NormNum.NatFactorial
import Calculator.Proofs.Precision.Division
import Calculator.Proofs.Real.AlternatingSum
import Calculator.Proofs.Real.Power
import Calculator.Proofs.Real.SquareRoot

/-!
# When sine and cosine have an answer

Whole turns are taken off exactly. What is left is less than 6.3, and then no term of the sum
exceeds 90. Unless the angle is so small that its square leaves the bounds, all parts of the sum are
of a moderate size.
-/

namespace Calculator

open Precision (working exponentBound)

namespace Decimal

variable {x y r s : Decimal} {e : ℤ} {i k : ℕ}

/-! ## Whole turns -/

/-- The rounded ratio lies between these bounds, which is all that the range of the angles needs. -/
theorem value_pi_lt : pi.value < 63 / 20 := by
  obtain ⟨-, -, -, -, below⟩ := digits_pi
  rw [lt_iff_value, value_ofParts] at below
  norm_num at below ⊢
  exact below

theorem lt_value_pi : 157 / 50 < pi.value := by
  obtain ⟨-, -, -, above, -⟩ := digits_pi
  rw [lt_iff_value, value_ofParts] at above
  norm_num at above ⊢
  exact above

/-- A whole turn is a working value, and twice the ratio without a rounding. -/
theorem exists_turn : ∃ turn, pi.mul 2 = .ok turn ∧ turn.IsWorking ∧ turn.value = 2 * pi.value := by
  obtain ⟨-, twice, -⟩ := digits_pi
  have value : (pi + pi).value = 2 * pi.value := by rw [value_add]; ring
  refine ⟨pi + pi, reported_of_answers (mul_answers isWorking_pi (by decide)) twice ?_, twice, value⟩
  rw [value, value_ofNat]
  push_cast
  ring

/-- The ratio has 135 places behind the point. -/
theorem onGrid_pi : OnGrid (-135) pi.value := by
  obtain ⟨-, -, places, -⟩ := digits_pi
  rw [value, places]
  exact ⟨_, rfl⟩

/-- The reduction of an angle is a remainder. -/
theorem reduceAngle_eq_ok {turn : Decimal} (turned : pi.mul 2 = .ok turn) :
    x.reduceAngle = .ok r ↔ working.remainder x turn = .ok r := by
  unfold reduceAngle rem
  rw [turned]
  exact reported_eq_ok

/-- Whole turns are taken off exactly. -/
theorem value_reduceAngle (hx : x.IsWorking) (h : x.reduceAngle = .ok r) :
    r.value = x.value - integerPart (x.value / (2 * pi.value)) * (2 * pi.value) ∧
      |r.value| < 2 * pi.value := by
  obtain ⟨turn, turned, ht, value⟩ := exists_turn
  have some : 0 < turn.value := by
    have := lt_value_pi
    rw [value]
    linarith
  rw [reduceAngle_eq_ok turned] at h
  obtain ⟨r', rest, remainder⟩ :=
    Precision.remainder_eq working_digits_pos hx.holds ht.holds some.ne'
  have same : r = r' := by
    rw [h] at remainder
    split at remainder
    · cases remainder
    · split at remainder
      · cases remainder
      · exact Except.ok.inj remainder
  have smaller := (Precision.rest_of_integerPart some.ne' rest).2.1
  rw [abs_of_pos some, ← same, value] at smaller
  rw [← same, value] at rest
  exact ⟨rest, smaller⟩

/-- Turns are taken off in whole units of the last place. -/
theorem onGrid_sub_turns (hx : x.IsWorking) (far : 1 ≤ |x.value|) (k : ℤ) :
    OnGrid (-135) (x.value - k * (2 * pi.value)) := by
  have angle := hx.onGrid (i := 0) (by rwa [zpow_zero])
  have turns := (onGrid_pi.intCast_mul 2).intCast_mul (-k)
  push_cast at turns
  rw [neg_mul] at turns
  rw [sub_eq_add_neg]
  exact angle.add turns

/-- An angle of less than a turn is kept. What is left of another one, which must not be too large,
is a multiple of the last place of the turn. -/
theorem exists_reduceAngle (hx : x.IsWorking) (bounded : |x.value| ≤ 10 ^ 100) :
    ∃ r, x.reduceAngle = .ok r ∧ (r = x ∨ 1 ≤ |x.value| ∧ OnGrid (-135) r.value) := by
  obtain ⟨turn, turned, ht, value⟩ := exists_turn
  have size := lt_value_pi
  have some : 1 < turn.value := by
    rw [value]
    linarith
  have pos : 0 < turn.value := by linarith
  obtain ⟨r, rest, remainder⟩ := Precision.remainder_eq working_digits_pos hx.holds ht.holds pos.ne'
  have places : working.digits = 136 := rfl
  -- the quotient is no longer than the angle
  have quotient : |integerPart (x.value / turn.value)| ≤ 10 ^ 100 := by
    have shorter : |x.value / turn.value| ≤ 10 ^ 100 := by
      rw [abs_div, abs_of_pos pos]
      exact (div_le_self (abs_nonneg _) some.le).trans bounded
    rw [abs_integerPart]
    exact Int.floor_le_iff.2 (by push_cast; linarith)
  have possible : ¬10 ^ working.digits ≤ |integerPart (x.value / turn.value)| := by
    rw [places]
    omega
  rw [if_neg possible] at remainder
  rcases lt_or_ge |x.value| turn.value with within | beyond
  · have none : integerPart (x.value / turn.value) = 0 := by
      have part : |x.value / turn.value| < 1 := by
        rwa [abs_div, abs_of_pos pos, div_lt_one pos]
      rw [← abs_eq_zero, abs_integerPart, Int.floor_eq_zero_iff]
      exact ⟨abs_nonneg _, part⟩
    rw [none, Int.cast_zero, zero_mul, sub_zero] at rest
    obtain rfl := value_injective rest
    have fits : ¬(r.value ≠ 0 ∧ r.adjusted < -exponentBound) := by
      rintro ⟨nonzero, small⟩
      rcases hx with vanishes | ⟨-, low, -⟩
      · exact nonzero (isZero_iff_value.1 vanishes)
      · omega
    rw [if_neg fits] at remainder
    exact ⟨r, (reduceAngle_eq_ok turned).2 remainder, .inl rfl⟩
  · have far : 1 ≤ |x.value| := by linarith
    have grid : OnGrid (-135) r.value := by
      rw [rest, value]
      exact onGrid_sub_turns hx far _
    have short : |r.value| ≤ 10 ^ 135 := by
      have smaller := (Precision.rest_of_integerPart pos.ne' rest).2.1
      have above := value_pi_lt
      have top : (10 : ℚ) ≤ 10 ^ 135 := le_self_pow₀ (by norm_num) (by norm_num)
      rw [abs_of_pos pos, value] at smaller
      linarith
    have fits : ¬(r.value ≠ 0 ∧ r.adjusted < -exponentBound) := by
      rintro ⟨nonzero, small⟩
      have bound : exponentBound = 999999 := rfl
      have place := le_adjusted_of_onGrid nonzero short grid
      omega
    rw [if_neg fits] at remainder
    exact ⟨r, (reduceAngle_eq_ok turned).2 remainder, .inr ⟨far, grid⟩⟩

/-! ## The sums of the sine and the cosine -/

theorem abs_pow_div_factorial_le {t : ℚ} (small : |t| ≤ 63 / 10) (n : ℕ) :
    |t ^ n / n.factorial| ≤ (63 / 10) ^ n / n.factorial := by
  rw [abs_div, abs_pow, Nat.abs_cast]
  gcongr

/-- The terms rise up to the power of six and fall then. -/
theorem pow_div_factorial_le (n : ℕ) : ((63 / 10) ^ n / n.factorial : ℚ) ≤ 90 := by
  rcases Nat.lt_or_ge n 6 with front | back
  · interval_cases n <;> norm_num
  · induction n, back using Nat.le_induction with
    | base => norm_num
    | succ n back ih =>
      have more : (6 : ℚ) ≤ n := by exact_mod_cast back
      have split : ((63 / 10) ^ (n + 1) / (n + 1).factorial : ℚ) =
          (63 / 10) ^ n / n.factorial * (63 / 10 / (n + 1)) := by
        rw [Nat.factorial_succ, pow_succ]
        push_cast
        field_simp
      have falls : (63 / 10 / (n + 1) : ℚ) ≤ 1 := by
        rw [div_le_one (by linarith)]
        linarith
      rw [split]
      exact (mul_le_of_le_one_right (by positivity) falls).trans ih

/-- With `1` and the angle as first terms the sums are the series of the cosine and the sine. -/
theorem unsignedTerm_pow (parity : i ≤ 1) (t : ℚ) (k : ℕ) :
    unsignedTerm (t ^ i) t (i + 1) k = t ^ (i + 2 * k) / (i + 2 * k).factorial := by
  have one : i.factorial = 1 := by interval_cases i <;> rfl
  rw [unsignedTerm, ← pow_add, ← Nat.factorial_mul_ascFactorial, one, one_mul]

/-- Up to a turn, no term is larger than ninety. -/
theorem abs_alternatingTerm_le {t : ℚ} (parity : i ≤ 1) (small : |t| ≤ 63 / 10) (j : ℕ) :
    |alternatingTerm (t ^ i) t (i + 1) j| ≤ 90 := by
  rw [abs_alternatingTerm, unsignedTerm_pow parity]
  exact (abs_pow_div_factorial_le small _).trans (pow_div_factorial_le _)

/-- A hundred terms are more than any of the sums takes. -/
theorem abs_unsignedTerm_hundred_le {t : ℚ} (parity : i ≤ 1) (small : |t| ≤ 63 / 10) :
    |unsignedTerm (t ^ i) t (i + 1) 100| ≤ 5 * 10 ^ (-137 : ℤ) := by
  rw [unsignedTerm_pow parity]
  refine (abs_pow_div_factorial_le small _).trans ?_
  interval_cases i <;> norm_num

/-- The loop of a series, without its limit, is left after `k` steps with this sum. -/
def AlternatingSum.Returns (first angle count : Decimal) (k : ℕ) (r : Decimal) : Prop :=
  ∃ square s, angle.sqr = .ok square ∧
    LeavesAfter (step square) isDone k (start first count) (.ok s) ∧ s.sum = r

section Series

variable {angle first sq : Decimal} (parity : i ≤ 1) (ha : angle.IsWorking) (hf : first.IsWorking)
  (value : first.value = angle.value ^ i) (small : |angle.value| ≤ 63 / 10)

include ha in
/-- The square of the angle is one rounding off. -/
theorem approximates_sqr (squared : angle.sqr = .ok sq) :
    working.Approximates 1 sq (angle.value * angle.value) := by
  have few := Precision.Approximates.of_few (n := 0) working_digits_pos ha.digits_le
  exact few.multiply working_digits_pos few (reported_eq_ok.1 squared)

include hf value in
/-- Sine and cosine start from the first powers of the angle. -/
theorem AlternatingSum.follows_start_pow :
    (start first (ofInt (i + 1 : ℕ))).Follows (angle.value ^ i) angle.value (i + 1) 90 0 := by
  have begins := follows_start hf (i + 1) angle.value 90
  rwa [value] at begins

include parity ha hf value small

/-- The loop leaves with a term of an index up to a hundred that no longer matters. -/
theorem AlternatingSum.Returns.follows (h : Returns first angle (ofInt (i + 1 : ℕ)) k r) :
    k ≤ 100 ∧ ∃ s : AlternatingSum, s.Follows (angle.value ^ i) angle.value (i + 1) 90 k ∧
      s.isDone = true ∧ s.sum = r := by
  obtain ⟨sq, s, squared, leaves, last⟩ := h
  have begins := follows_start_pow hf value
  obtain ⟨below, follows, done⟩ := begins.leaves (N := 100) (approximates_sqr ha squared)
    (by omega) (by omega) (by omega) (abs_alternatingTerm_le parity small)
    (abs_unsignedTerm_hundred_le parity small) leaves
  exact ⟨below, s, follows, done, last⟩

/-- The limit of the loop makes no difference. -/
theorem alternatingSeries_eq_ok : alternatingSeries first angle (ofInt (i + 1 : ℕ)) = .ok r ↔
    ∃ k, AlternatingSum.Returns first angle (ofInt (i + 1 : ℕ)) k r := by
  constructor
  · intro h
    obtain ⟨sq, squared, h⟩ := bind_eq_ok.1 h
    obtain ⟨s, run, last⟩ := bind_eq_ok.1 h
    have begins := AlternatingSum.follows_start_pow hf value
    obtain ⟨k, leaves⟩ := begins.run (N := 100) (approximates_sqr ha squared)
      (by omega) (by omega) (by omega) (abs_alternatingTerm_le parity small)
      (abs_unsignedTerm_hundred_le parity small) (by decide) run
    exact ⟨k, sq, s, squared, leaves, Except.ok.inj last⟩
  · rintro ⟨k, h⟩
    have below := (h.follows parity ha hf value small).1
    obtain ⟨sq, s, squared, leaves, rfl⟩ := h
    have enough : 100 ≤ AlternatingSum.limit := by decide
    have run := (AlternatingSum.isLoop sq).run_of_leavesAfter leaves (below.trans enough)
    exact bind_eq_ok.2 ⟨sq, squared, bind_eq_ok.2 ⟨s, run, rfl⟩⟩

/-- The sum of a series ends with a term of an index up to a hundred that no longer matters. -/
theorem alternatingSeries_follows (h : alternatingSeries first angle (ofInt (i + 1 : ℕ)) = .ok r) :
    ∃ k ≤ 100, ∃ s : AlternatingSum, s.Follows (angle.value ^ i) angle.value (i + 1) 90 k ∧
      s.isDone = true ∧ s.sum = r := by
  obtain ⟨k, returns⟩ := (alternatingSeries_eq_ok parity ha hf value small).1 h
  obtain ⟨below, follows⟩ := returns.follows parity ha hf value small
  exact ⟨k, below, follows⟩

/-- The sum has an answer unless the angle is very small. -/
theorem exists_alternatingSeries (moderate : Within 136 angle.value) :
    ∃ r, alternatingSeries first angle (ofInt (i + 1 : ℕ)) = .ok r ∧ OnGrid (-300000) r.value := by
  have top : exponentBound.toNat = 999999 := rfl
  have within_first : Within 136 first.value := by
    rw [value]
    exact (moderate.pow i).mono (by omega)
  have grid : OnGrid (-300000) first.value := by
    rw [← nearest_value hf.digits_le working_digits_pos]
    exact (within_first.onGrid_nearest (d := working.digits)).mono (by decide)
  obtain ⟨sq, squared, -⟩ := exists_mul ha.digits_le ha.digits_le
    ((moderate.mul moderate).mono (by omega))
  have begins := AlternatingSum.follows_start_pow hf value
  have enough : 100 ≤ AlternatingSum.limit := by decide
  obtain ⟨s, run, end_grid⟩ := begins.exists_run (approximates_sqr ha squared)
    (by omega) (by omega) (by omega) (abs_alternatingTerm_le parity small)
    (abs_unsignedTerm_hundred_le parity small) (by norm_num) (value ▸ within_first) moderate
    enough grid
  exact ⟨s.sum, bind_eq_ok.2 ⟨sq, squared, bind_eq_ok.2 ⟨s, run, rfl⟩⟩, end_grid⟩

end Series

/-! ## Answers -/

/-- A sine is a reduction, a series and a threshold. -/
theorem sin_eq_ok : x.sin = .ok y ↔ ∃ angle, x.reduceAngle = .ok angle ∧
    ∃ sum, alternatingSeries angle angle 2 = .ok sum ∧ sum.snapToZero = .ok y := by
  simp only [sin, bind_eq_ok, liftM_eq_ok]

/-- So is a cosine, whose series starts from one. -/
theorem cos_eq_ok : x.cos = .ok y ↔ ∃ angle, x.reduceAngle = .ok angle ∧
    ∃ sum, alternatingSeries 1 angle 1 = .ok sum ∧ sum.snapToZero = .ok y := by
  simp only [cos, bind_eq_ok, liftM_eq_ok]

/-- A result within the bounds passes the threshold. -/
theorem exists_snapToZero (h : Within exponentBound.toNat x.value) :
    ∃ y, x.snapToZero = .ok y := by
  obtain ⟨shown, rounded, -⟩ :=
    exists_reported (by decide : 0 < 50) (Precision.round_answers (p := ⟨50⟩) x (by decide)) h
  exact ⟨_, bind_eq_ok.2 ⟨shown, rounded, rfl⟩⟩

/-- The square of a number of a moderate size has an answer, and so has half of it. -/
theorem exists_half {d : ℕ} (hx : x.IsWorking) (h : Within d x.value) (few : d ≤ 400000) :
    ∃ sq, x.sqr = .ok sq ∧ ∃ half, sq.div 2 = .ok half := by
  have top : exponentBound.toNat = 999999 := rfl
  obtain ⟨sq, squared, rounded⟩ := exists_mul hx.digits_le hx.digits_le ((h.mul h).mono (by omega))
  have two : (2 : Decimal).value = 2 := value_ofNat 2
  have divisor : Within 1 (2 : Decimal).value := by
    rw [two]
    exact .inr (by norm_num)
  have hs := yields_sqr _ _ squared
  have square : Within (d + d + 1) sq.value := by
    rw [rounded]
    exact (h.mul h).of_drift working_digits_pos (few_roundings (by omega : 1 ≤ 10 ^ 18))
      (.nearest working_digits_pos _)
  obtain ⟨half, halved, -⟩ := exists_div hs.digits_le (by decide : (2 : Decimal).digits ≤ 136)
    (by rw [two]; norm_num) ((square.div divisor).mono (by omega))
  exact ⟨sq, squared, half, halved⟩

/-- The reduced angles are in the range of the series. -/
theorem lt_turn (small : |x.value| < 2 * pi.value) : |x.value| ≤ 63 / 10 := by
  have above := value_pi_lt
  linarith

/-- The partial sums are not large. -/
theorem within_of_onGrid (grid : OnGrid (-300000) x.value) (small : |x.value| ≤ 10 ^ 10) :
    Within exponentBound.toNat x.value := by
  have top : exponentBound.toNat = 999999 := rfl
  have bounded : |x.value| ≤ 10 ^ 300000 :=
    small.trans (pow_le_pow_right₀ (by norm_num) (by norm_num))
  exact (grid.within (e := 300000) bounded).mono (by omega)

/-- Of a reduced angle that is not very small the sums have an answer that can be shown. -/
theorem exists_shown_series {angle first : Decimal} (parity : i ≤ 1) (ha : angle.IsWorking)
    (hf : first.IsWorking) (value : first.value = angle.value ^ i)
    (small : |angle.value| ≤ 63 / 10) (moderate : Within 136 angle.value) :
    ∃ sum, alternatingSeries first angle (ofInt (i + 1 : ℕ)) = .ok sum ∧
      ∃ y, sum.snapToZero = .ok y := by
  obtain ⟨sum, series, grid⟩ := exists_alternatingSeries parity ha hf value small moderate
  obtain ⟨k, below, s, follows, -, rfl⟩ := alternatingSeries_follows parity ha hf value small series
  have size := follows.sum.abs_le (abs_alternatingTerm_le parity small) (by omega)
  have count : (k : ℚ) ≤ 100 := by exact_mod_cast below
  exact ⟨s.sum, series, exists_snapToZero (within_of_onGrid grid (by linarith))⟩

/-- A number that is not very small is of a moderate size, if it is not too large either. -/
theorem within_or_small (d : ℕ) (bounded : |x.value| ≤ 10 ^ d) :
    Within d x.value ∨ |x.value| ≤ 10 ^ (-d : ℤ) := by
  rcases le_total |x.value| (10 ^ (-d : ℤ)) with small | large
  · exact .inr small
  · exact .inl (.inr ⟨large, bounded⟩)

/-- With a moderate angle, as it is left of one that is reduced, sine and cosine have an answer. -/
theorem exists_sin_cos {angle : Decimal} (ha : angle.IsWorking) (reduced : x.reduceAngle = .ok angle)
    (small : |angle.value| ≤ 63 / 10) (moderate : Within 136 angle.value) :
    (∃ y, x.sin = .ok y) ∧ ∃ y, x.cos = .ok y := by
  constructor
  · obtain ⟨sum, series, y, shown⟩ := exists_shown_series (i := 1) le_rfl ha ha
      (pow_one _).symm small moderate
    exact ⟨y, sin_eq_ok.2 ⟨angle, reduced, sum, series, shown⟩⟩
  · obtain ⟨sum, series, y, shown⟩ := exists_shown_series (i := 0) (by decide) ha isWorking_one
      (value_one.trans (pow_zero _).symm) small moderate
    exact ⟨y, cos_eq_ok.2 ⟨angle, reduced, sum, series, shown⟩⟩

/-- The sum of a very small angle ends where it starts. -/
theorem exists_sin_of_small (hx : x.IsWorking) (reduced : x.reduceAngle = .ok x)
    (small : |x.value| ≤ 10 ^ (-136 : ℤ)) (squared : x.sqr = .ok s) : ∃ y, x.sin = .ok y := by
  have done : (AlternatingSum.start x 2).isDone = true := by
    rw [AlternatingSum.isDone, decide_eq_true_iff, le_iff_value, value_abs,
      AlternatingSum.value_termThreshold]
    exact small
  have run : AlternatingSum.run s AlternatingSum.limit (.start x 2) = .ok (.start x 2) := by
    rw [AlternatingSum.limit, AlternatingSum.run, if_pos done]
    rfl
  have inside : Within exponentBound.toNat x.value := by
    refine hx.within (small.trans ?_)
    have below : (10 : ℚ) ^ (-136 : ℤ) ≤ 1 := by norm_num
    exact below.trans (one_le_pow₀ (by norm_num))
  obtain ⟨y, shown⟩ := exists_snapToZero inside
  exact ⟨y, sin_eq_ok.2 ⟨x, reduced, x, bind_eq_ok.2 ⟨s, squared, bind_eq_ok.2 ⟨_, run, rfl⟩⟩, shown⟩⟩

/-- Where the square of an angle is in bounds, so is its sine, and conversely; a large angle loses
its turns before it is squared. -/
theorem exists_sin_iff (hx : x.IsWorking) (bounded : |x.value| ≤ 10 ^ 100) :
    (∃ y, x.sin = .ok y) ↔ ∃ s, x.sqr = .ok s := by
  obtain ⟨angle, reduced, kept⟩ := exists_reduceAngle hx bounded
  have ha := yields_reduceAngle x angle reduced
  have small := lt_turn (value_reduceAngle hx reduced).2
  rcases kept with rfl | ⟨far, grid⟩
  · constructor
    · rintro ⟨y, h⟩
      obtain ⟨angle, reduced', sum, series, -⟩ := sin_eq_ok.1 h
      obtain rfl := Except.ok.inj (reduced.symm.trans reduced')
      obtain ⟨s, squared, -⟩ := bind_eq_ok.1 series
      exact ⟨s, squared⟩
    · rintro ⟨s, squared⟩
      have top : (10 : ℚ) ≤ 10 ^ 136 := le_self_pow₀ (by norm_num) (by norm_num)
      rcases within_or_small 136 (by linarith : |angle.value| ≤ 10 ^ 136) with moderate | tiny
      · exact (exists_sin_cos ha reduced small moderate).1
      · exact exists_sin_of_small ha reduced tiny squared
  · have top : (10 : ℚ) ≤ 10 ^ 136 := le_self_pow₀ (by norm_num) (by norm_num)
    have moderate := (grid.mono (by omega)).within (e := 136) (by linarith)
    have size : Within 100 x.value :=
      .inr ⟨le_trans (by norm_num) far, bounded⟩
    obtain ⟨s, squared, -⟩ := exists_half hx size (by omega)
    exact iff_of_true (exists_sin_cos ha reduced small moderate).1 ⟨s, squared⟩

/-! ## The cosine of a very small angle -/

theorem one_mul_eq (hx : x.IsWorking) : (1 : Decimal).mul x = .ok x :=
  reported_of_answers (mul_answers isWorking_one hx) hx (by rw [value_one, one_mul])

theorem one_not_done : ¬(AlternatingSum.start 1 1).isDone = true := by decide

/-- The cosine takes in a second term whatever the angle is: half the square. -/
theorem first_step_eq_ok {next : AlternatingSum} (hs : s.IsWorking) :
    (AlternatingSum.start 1 1).step s = .ok next ↔
      ∃ half sum, s.div 2 = .ok half ∧ sub 1 half = .ok sum ∧ next = ⟨sum, half, s, 2, 3, false⟩ := by
  have product := one_mul_eq hs
  have factors : (1 : Decimal).fusedMultiplyAdd 1 1 = .ok 2 := by decide
  have denominator : (1 : Decimal).mul 2 = .ok 2 := by decide
  have count : (1 : Decimal).add 2 = .ok 3 := by decide
  simp only [AlternatingSum.step, AlternatingSum.start, product, factors, count, if_true, bind_eq_ok]
  constructor
  · rintro ⟨_, ⟨⟩, _, ⟨⟩, _, grown, _, ⟨⟩, half, halved, sum, joined, ⟨⟩⟩
    obtain rfl := Except.ok.inj (denominator.symm.trans grown)
    exact ⟨half, sum, halved, joined, rfl⟩
  · rintro ⟨half, sum, halved, joined, rfl⟩
    exact ⟨s, rfl, 2, rfl, 2, denominator, 3, rfl, half, halved, sum, joined, rfl⟩

/-- The cosine squares the angle and halves the square in its first step, so both are answered. -/
theorem exists_half_of_cos (reduced : x.reduceAngle = .ok x) (h : x.cos = .ok y) :
    ∃ s half, x.sqr = .ok s ∧ s.div 2 = .ok half := by
  obtain ⟨angle, reduced', sum, series, -⟩ := cos_eq_ok.1 h
  obtain rfl := Except.ok.inj (reduced.symm.trans reduced')
  obtain ⟨s, squared, rest⟩ := bind_eq_ok.1 series
  obtain ⟨e, run, -⟩ := bind_eq_ok.1 rest
  rw [AlternatingSum.limit, AlternatingSum.run, if_neg one_not_done] at run
  obtain ⟨next, stepped, -⟩ := bind_eq_ok.1 run
  obtain ⟨half, -, halved, -⟩ := (first_step_eq_ok (yields_sqr _ _ squared)).1 stepped
  exact ⟨s, half, squared, halved⟩

/-- For a very small angle these two are all that can fail. -/
theorem exists_cos_of_small {half : Decimal} (hx : x.IsWorking) (reduced : x.reduceAngle = .ok x)
    (small : |x.value| ≤ 10 ^ (-136 : ℤ)) (squared : x.sqr = .ok s) (halved : s.div 2 = .ok half) :
    ∃ y, x.cos = .ok y := by
  have digit := working_digits_pos
  have tiny : (10 : ℚ) ^ (-136 : ℤ) ≤ 1 / 10 := by norm_num
  have hs := yields_sqr _ _ squared
  have divisor : (2 : Decimal).value = 2 := value_ofNat 2
  have square : |s.value| ≤ 10 ^ (-136 : ℤ) := by
    rw [value_mul_self hx squared]
    refine abs_nearest_le_zpow digit ?_
    rw [abs_pow, abs_abs, pow_two]
    have part := small.trans (tiny.trans (by norm_num : (1 : ℚ) / 10 ≤ 1))
    exact (mul_le_of_le_one_right (abs_nonneg _) part).trans small
  have last : |half.value| ≤ 10 ^ (-136 : ℤ) := by
    have answer := div_answers hs (by decide : IsWorking 2) (by rw [divisor]; norm_num)
    rw [reported_eq_ok.1 halved, divisor] at answer
    rw [answer.value_eq]
    refine abs_nearest_le_zpow digit ?_
    rw [abs_div, abs_two]
    exact (half_le_self (abs_nonneg _)).trans square
  have bounds := abs_le.1 (last.trans tiny)
  have near_one : Within 1 ((1 : Decimal).value - half.value) := by
    rw [value_one]
    refine .inr ⟨?_, ?_⟩
    · rw [abs_of_pos (by linarith)]
      norm_num
      linarith
    · rw [abs_of_pos (by linarith)]
      norm_num
      linarith
  have top : exponentBound.toNat = 999999 := rfl
  obtain ⟨sum, joined, rounded⟩ := exists_sub isWorking_one.digits_le
    (yields_div _ _ _ halved).digits_le (near_one.mono (by omega))
  have stepped := (first_step_eq_ok hs).2 ⟨half, sum, halved, joined, rfl⟩
  have done : (⟨sum, half, s, 2, 3, false⟩ : AlternatingSum).isDone = true := by
    rw [AlternatingSum.isDone, decide_eq_true_iff, le_iff_value, value_abs,
      AlternatingSum.value_termThreshold]
    exact last
  have run : AlternatingSum.run s AlternatingSum.limit (.start 1 1) =
      .ok ⟨sum, half, s, 2, 3, false⟩ := by
    rw [AlternatingSum.limit, AlternatingSum.run, if_neg one_not_done, stepped]
    change AlternatingSum.run s 399 _ = _
    rw [AlternatingSum.run, if_pos done]
    rfl
  have inside : Within exponentBound.toNat sum.value := by
    rw [rounded]
    exact (near_one.of_drift digit (few_roundings (by omega : 1 ≤ 10 ^ 18))
      (.nearest digit _)).mono (by omega)
  obtain ⟨y, shown⟩ := exists_snapToZero inside
  exact ⟨y, cos_eq_ok.2 ⟨x, reduced, sum,
    bind_eq_ok.2 ⟨s, squared, bind_eq_ok.2 ⟨_, run, rfl⟩⟩, shown⟩⟩

/-- The cosine has an answer where the square of the angle and half of it are in bounds. -/
theorem exists_cos_iff (hx : x.IsWorking) (bounded : |x.value| ≤ 10 ^ 100) :
    (∃ y, x.cos = .ok y) ↔ ∃ s half, x.sqr = .ok s ∧ s.div 2 = .ok half := by
  obtain ⟨angle, reduced, kept⟩ := exists_reduceAngle hx bounded
  have ha := yields_reduceAngle x angle reduced
  have small := lt_turn (value_reduceAngle hx reduced).2
  rcases kept with rfl | ⟨far, grid⟩
  · constructor
    · rintro ⟨y, h⟩
      exact exists_half_of_cos reduced h
    · rintro ⟨s, half, squared, halved⟩
      have top : (10 : ℚ) ≤ 10 ^ 136 := le_self_pow₀ (by norm_num) (by norm_num)
      rcases within_or_small 136 (by linarith : |angle.value| ≤ 10 ^ 136) with moderate | tiny
      · exact (exists_sin_cos ha reduced small moderate).2
      · exact exists_cos_of_small ha reduced tiny squared halved
  · have top : (10 : ℚ) ≤ 10 ^ 136 := le_self_pow₀ (by norm_num) (by norm_num)
    have moderate := (grid.mono (by omega)).within (e := 136) (by linarith)
    have size : Within 100 x.value :=
      .inr ⟨le_trans (by norm_num) far, bounded⟩
    obtain ⟨s, squared, half, halved⟩ := exists_half hx size (by omega)
    exact iff_of_true (exists_sin_cos ha reduced small moderate).2 ⟨s, half, squared, halved⟩

end Decimal

end Calculator
