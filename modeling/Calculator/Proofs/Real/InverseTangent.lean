import Calculator.Proofs.Real.OddSum
import Calculator.Proofs.Real.SineCosine

/-!
# When the inverse tangent has an answer

The tangent of half an angle is at most a little more than one, and the tangent of half of that is
below a half, so the angle is halved twice at most. The root in it is not below any number whose
square is below the radicand, and that is enough to bound the quotient from both sides. All numbers on
the way are of a moderate size but the first square; the inverse tangent fails only where this does.
-/

namespace Calculator.Decimal

open Precision (working exponentBound Answers InRange)

variable {x y s : Decimal} {q : ℚ}

/-! ## Sums and roots of positive numbers -/

/-- A rounding hardly changes a number. -/
theorem nearest_bounds (nonneg : 0 ≤ q) :
    (1 - 1 / 10 ^ 20) * q ≤ nearest working.digits q ∧
      nearest working.digits q ≤ (1 + 1 / 10 ^ 20) * q := by
  have off := abs_le.1 (abs_nearest_sub_le (d := working.digits) (q := q))
  have part := mul_le_mul_of_nonneg_right roundoff_working_le (abs_nonneg q)
  rw [abs_of_nonneg nonneg] at off part
  exact ⟨by linarith, by linarith⟩

/-- One more than a working value is not too large: one is less than half a unit of the last place of
a large one. -/
theorem exists_add_one (hx : x.IsWorking) (nonneg : 0 ≤ x.value) :
    ∃ y, x.add 1 = .ok y ∧ y.value = nearest working.digits (x.value + 1) := by
  have digit := working_digits_pos
  have places : working.digits = 136 := rfl
  have bound : exponentBound = 999999 := rfl
  have answer := add_answers hx (by decide : IsWorking 1)
  rw [value_one] at answer
  refine exists_reported_of_inRange digit answer ?_
  have front : 1 ≤ |nearest working.digits (x.value + 1)| := by
    refine one_le_abs_nearest digit ?_
    rw [abs_of_nonneg (by linarith)]
    linarith
  have some : 0 < |nearest working.digits (x.value + 1)| := by linarith
  have low := Int.log_mono_right (b := 10) one_pos front
  rw [Int.log_one_right] at low
  refine .inr ⟨by omega, ?_⟩
  rcases nonneg.eq_or_lt with vanishes | pos
  · rw [← vanishes, zero_add, nearest_one digit, abs_one, Int.log_one_right]
    omega
  · obtain ⟨k, e, lower, upper, value, place⟩ := exists_full hx.digits_le pos
    rcases lt_or_ge e 1 with short | long
    · -- no digit of a short number is lost
      have small : |x.value + 1| ≤ 10 ^ (137 : ℤ) := by
        have unit : (10 : ℚ) ^ e ≤ 1 := zpow_le_one_of_nonpos₀ (by norm_num) (by omega)
        have count : (k : ℚ) ≤ 10 ^ 136 := by exact_mod_cast upper.le
        have product := mul_le_mul count unit (ten_zpow_pos e).le (by positivity)
        rw [abs_of_nonneg (by linarith), value]
        norm_num at product ⊢
        linarith
      have log := Int.log_mono_right (b := 10) some (abs_nearest_le_zpow digit small)
      have power : Int.log 10 ((10 : ℚ) ^ (137 : ℤ)) = 137 := by
        exact_mod_cast Int.log_zpow (R := ℚ) (b := 10) (by decide) 137
      omega
    · have kept : nearest working.digits (x.value + 1) ≤ x.value := by
        have unit : (10 : ℚ) ^ (1 : ℤ) ≤ 10 ^ e := zpow_le_zpow_right₀ (by norm_num) long
        rw [zpow_one] at unit
        have less : x.value + 1 < ((k : ℚ) + 1 / 2) * 10 ^ e := by
          rw [value]
          linarith
        rw [value] at less ⊢
        exact (nearest_le_iff digit lower upper (by positivity)).2 less
      have log := Int.log_mono_right (b := 10) some
        ((abs_of_nonneg (nearest_nonneg (by linarith))).trans_le (kept.trans (le_abs_self _)))
      have high := (hx.inRange.resolve_left pos.ne').2
      omega

/-- The root is hardly below a number whose square is not above the radicand. -/
theorem le_sqrt {k : ℕ} {e : ℤ} (hx : x.IsWorking) (pos : 0 < x.value) (few : k < 10 ^ 146)
    (square : ((k : ℚ) * 10 ^ e) ^ 2 ≤ x.value) (h : x.sqrt = .ok y) :
    (1 - 1 / 10 ^ 20) * ((k : ℚ) * 10 ^ e) ≤ y.value := by
  have below := Precision.le_longRoot_of_sq_le (p := working) pos few square
  have rounded := (nearest_bounds (Precision.longRoot_pos (p := working) pos).le).1
  rw [value_sqrt hx pos h]
  refine le_trans ?_ rounded
  exact mul_le_mul_of_nonneg_left below (by norm_num)

theorem longRoot_le (pos : 0 < x.value) : working.longRoot x ≤ 3 / 2 * working.widened.cutRoot x := by
  have root := Precision.cutRoot_pos (p := working.widened) pos
  have off := abs_le.1 (abs_nearest_sub_le (d := working.widened.digits)
    (q := working.widened.cutRoot x))
  have unit : roundoff working.widened.digits ≤ 1 / 2 := by
    rw [roundoff_widened]
    norm_num
  have part := mul_le_mul_of_nonneg_right unit root.le
  rw [abs_of_pos root] at off
  rw [Precision.longRoot]
  linarith

/-- The root of a working value is far from the bounds of the exponents. -/
theorem within_longRoot (hx : x.IsWorking) (pos : 0 < x.value) : Within 600000 (working.longRoot x) := by
  have bound : exponentBound = 999999 := rfl
  obtain ⟨small, large⟩ := hx.inRange.resolve_left pos.ne'
  rw [abs_of_pos pos] at small large
  have above : (10 : ℚ) ^ (-1000000 : ℤ) ≤ x.value := by
    have power : (10 : ℚ) ^ (-1000000 : ℤ) ≤ 10 ^ Int.log 10 x.value :=
      zpow_le_zpow_right₀ (by norm_num) (by omega)
    exact power.trans (by exact_mod_cast Int.zpow_log_le_self (by decide : 1 < 10) pos)
  have below : x.value ≤ 10 ^ 1000000 := (le_abs_self _).trans (hx.inRange.abs_lt (by decide)).le
  have longPos := Precision.longRoot_pos (p := working) pos
  refine .inr ⟨?_, ?_⟩
  · have unit : ((1 : ℕ) * (10 : ℚ) ^ (-500000 : ℤ)) ^ 2 ≤ x.value := by
      rw [Nat.cast_one, one_mul, pow_two, ← ten_zpow_add]
      exact above
    have root := Precision.le_longRoot_of_sq_le (p := working) pos (by decide) unit
    rw [Nat.cast_one, one_mul] at root
    rw [abs_of_pos longPos]
    exact (zpow_le_zpow_right₀ (by norm_num) (by omega)).trans root
  · have cut : working.widened.cutRoot x ≤ 10 ^ 500000 := by
      refine le_of_sq_le_sq ?_ (by positivity)
      rw [← pow_mul]
      exact (Precision.cutRoot_sq_le (p := working.widened) pos).trans below
    have more : (3 : ℚ) / 2 * 10 ^ 500000 ≤ 10 * 10 ^ 500000 :=
      mul_le_mul_of_nonneg_right (by norm_num) (by positivity)
    have next : (10 : ℚ) * 10 ^ 500000 = 10 ^ 500001 := (pow_succ' 10 500000).symm
    rw [abs_of_pos longPos]
    calc working.longRoot x ≤ 3 / 2 * working.widened.cutRoot x := longRoot_le pos
      _ ≤ 3 / 2 * 10 ^ 500000 := mul_le_mul_of_nonneg_left cut (by norm_num)
      _ ≤ 10 ^ 500001 := more.trans_eq next
      _ ≤ 10 ^ 600000 := pow_le_pow_right₀ (by norm_num) (by omega)

/-- The root of a positive number has an answer, which is not much above the root. -/
theorem exists_sqrt (hx : x.IsWorking) (pos : 0 < x.value) :
    ∃ y, x.sqrt = .ok y ∧ y.value ^ 2 ≤ 4 * x.value := by
  have digit := working_digits_pos
  have top : exponentBound.toNat = 999999 := rfl
  have cut := Precision.cutRoot_pos (p := working.widened) pos
  have square := Precision.cutRoot_sq_le (p := working.widened) pos
  have long := longRoot_le pos
  have longPos := Precision.longRoot_pos (p := working) pos
  obtain ⟨y, root, value⟩ := exists_reported digit (sqrt_answers hx pos)
    ((within_longRoot hx pos).mono (by omega))
  refine ⟨y, (sqrt_eq_ok_iff pos).2 (reported_eq_ok.1 root), ?_⟩
  have rounded := (nearest_bounds longPos.le).2
  have bound : y.value ≤ 2 * working.widened.cutRoot x := by
    rw [value]
    linarith
  have nonneg : 0 ≤ y.value := by
    rw [value]
    exact nearest_nonneg longPos.le
  calc y.value ^ 2 ≤ (2 * working.widened.cutRoot x) ^ 2 := pow_le_pow_left₀ nonneg bound 2
    _ = 4 * working.widened.cutRoot x ^ 2 := by ring
    _ ≤ 4 * x.value := by linarith

/-! ## Halving the angle -/

theorem halvedTangent_eq_ok : x.halvedTangent = .ok y ↔ ∃ square, x.sqr = .ok square ∧
    ∃ radicand, square.add 1 = .ok radicand ∧ ∃ root, radicand.sqrt = .ok root ∧
      ∃ divisor, root.add 1 = .ok divisor ∧ x.div divisor = .ok y := by
  simp only [halvedTangent, bind_eq_ok, liftM_eq_ok]

/-- What the quotient is divided by, in proportion to the number. -/
structure DivisorBounds (m d : ℚ) : Prop where
  low : 998 / 1000 * m ≤ d
  apart : 209 / 100 ≤ d
  high : d ≤ 8 * m

/-- Halving goes through when the square does. -/
theorem exists_divisor (hx : x.IsWorking) (large : 1 / 2 < |x.value|) (squared : x.sqr = .ok s) :
    ∃ radicand root divisor, s.add 1 = .ok radicand ∧ radicand.sqrt = .ok root ∧
      root.add 1 = .ok divisor ∧ DivisorBounds |x.value| divisor.value := by
  have m_pos : 0 < |x.value| := by linarith
  have hs := yields_sqr _ _ squared
  have square := nearest_bounds (sq_nonneg |x.value|)
  rw [← value_mul_self hx squared] at square
  have quarter : 1 / 4 ≤ |x.value| ^ 2 := by nlinarith
  obtain ⟨radicand, added, value⟩ := exists_add_one hs (by linarith)
  have hr := yields_add _ _ _ added
  have sum := nearest_bounds (q := s.value + 1) (by linarith)
  rw [← value] at sum
  obtain ⟨root, rooted, high⟩ := exists_sqrt hr (by linarith)
  have root_nonneg : 0 ≤ root.value := by
    have bound := le_sqrt (k := 0) (e := 0) hr (by linarith) (by norm_num)
      (by norm_num; linarith) rooted
    simpa using bound
  -- a number slightly below the magnitude, of a few digits more
  have near : 999 / 1000 * |x.value| ≤ root.value := by
    obtain ⟨k, e, -, few, magnitude, -⟩ := hx.exists_magnitude (abs_pos.1 m_pos)
    have fine : (((9995 * k : ℕ) : ℚ) * 10 ^ (e - 4)) = 9995 / 10000 * |x.value| := by
      rw [magnitude, zpow_sub₀ (by norm_num)]
      push_cast
      norm_num
      ring
    have below : (((9995 * k : ℕ) : ℚ) * 10 ^ (e - 4)) ^ 2 ≤ radicand.value := by
      rw [fine, mul_pow]
      nlinarith
    have places : working.digits = 136 := rfl
    rw [places] at few
    have bound := le_sqrt hr (by linarith) (by omega) below rooted
    rw [fine] at bound
    linarith
  have apart : 11 / 10 ≤ root.value := by
    have bound := le_sqrt (k := 111) (e := -2) hr (by linarith) (by norm_num)
      (by norm_num; linarith) rooted
    norm_num at bound
    linarith
  obtain ⟨divisor, joined, rounded⟩ := exists_add_one (yields_sqrt _ _ rooted) root_nonneg
  have last := nearest_bounds (q := root.value + 1) (by linarith)
  rw [← rounded] at last
  refine ⟨radicand, root, divisor, added, rooted, joined, by linarith, by linarith, ?_⟩
  have upper : root.value ≤ 5 * |x.value| := by
    refine le_of_sq_le_sq ?_ (by linarith)
    nlinarith
  linarith

/-- The tangent of half the angle. -/
theorem exists_halvedTangent (hx : x.IsWorking) (large : 1 / 2 < |x.value|)
    (squared : x.sqr = .ok s) :
    ∃ y, x.halvedTangent = .ok y ∧ y.IsWorking ∧ 1 / 10 ≤ |y.value| ∧
      |y.value| ≤ 1004 / 1000 ∧ (|x.value| ≤ 1004 / 1000 → |y.value| ≤ 1 / 2) := by
  have digit := working_digits_pos
  obtain ⟨radicand, root, divisor, added, rooted, joined, bounds⟩ := exists_divisor hx large squared
  have apart := bounds.apart
  have pos : 0 < divisor.value := by linarith
  have size : |x.value / divisor.value| = |x.value| / divisor.value := by rw [abs_div, abs_of_pos pos]
  have lower : 1 / 8 ≤ |x.value / divisor.value| := by
    rw [size, le_div_iff₀ pos]
    linarith [bounds.high]
  have upper : |x.value / divisor.value| ≤ 1003 / 1000 := by
    rw [size, div_le_iff₀ pos]
    linarith [bounds.low]
  have within : Within 1 (x.value / divisor.value) := by
    refine .inr ⟨le_trans ?_ lower, upper.trans ?_⟩ <;> norm_num
  have top : exponentBound.toNat = 999999 := rfl
  obtain ⟨y, quotient, rounded⟩ := exists_div hx.digits_le (yields_add _ _ _ joined).digits_le pos.ne'
    (within.mono (by omega))
  have last := nearest_bounds (abs_nonneg (x.value / divisor.value))
  rw [← abs_nearest, ← rounded] at last
  refine ⟨y, halvedTangent_eq_ok.2 ⟨s, squared, radicand, added, root, rooted, divisor, joined,
    quotient⟩, yields_div _ _ _ quotient, by linarith, by linarith, fun small => ?_⟩
  have less : |x.value / divisor.value| ≤ 49 / 100 := by
    rw [size, div_le_iff₀ pos]
    linarith
  linarith

/-! ## The series -/

theorem arctanSeries_eq_ok : x.arctanSeries = .ok y ↔ ∃ square, x.sqr = .ok square ∧
    ∃ s, OddSum.run (-square) OddSum.limit (.start x) = .ok s ∧ s.sum = y := by
  simp only [arctanSeries, bind_eq_ok]
  refine exists_congr fun square => and_congr_right fun _ => exists_congr fun s =>
    and_congr_right fun _ => ?_
  exact ⟨fun h => Except.ok.inj h, fun h => congrArg _ h⟩

/-- A partial result that can be doubled. -/
structure Doublable (y : Decimal) (b : ℚ) : Prop where
  isWorking : y.IsWorking
  grid : OnGrid (-300000) y.value
  bounded : |y.value| ≤ b

/-- The series of a number that is not very small has an answer. -/
theorem exists_arctanSeries (hx : x.IsWorking) (small : |x.value| ≤ 1 / 2)
    (moderate : Within 136 x.value) : ∃ y, x.arctanSeries = .ok y ∧ y.Doublable 1000 := by
  obtain ⟨square, squared, -⟩ := exists_half hx moderate (by omega)
  have factor : working.Approximates 1 (-square) (-(x.value * x.value)) :=
    (approximates_sqr hx squared).neg
  have grid : OnGrid (-300000) x.value := by
    rw [← nearest_value hx.digits_le working_digits_pos]
    exact (moderate.onGrid_nearest (d := working.digits)).mono (by decide)
  have enough : 250 ≤ OddSum.limit := by decide
  obtain ⟨s, run, end_grid⟩ :=
    (OddSum.follows_start hx).exists_run factor small moderate enough grid
  obtain ⟨k, below, follows, -⟩ := (OddSum.follows_start hx).run factor small (by decide) run
  have size := follows.sum.abs_le (abs_oddTerm_le_one small) (by omega)
  have count : (k : ℚ) ≤ 250 := by exact_mod_cast below
  have series := arctanSeries_eq_ok.2 ⟨square, squared, s, run, rfl⟩
  exact ⟨s.sum, series, hx.yields_arctanSeries _ series, end_grid, by linarith⟩

/-- That of a very small one ends where it starts. -/
theorem arctanSeries_of_small (small : |x.value| ≤ 10 ^ (-136 : ℤ)) (squared : x.sqr = .ok s) :
    x.arctanSeries = .ok x := by
  have done : (OddSum.start x).isDone = true := by
    rw [OddSum.isDone, decide_eq_true_iff, le_iff_value, value_abs,
      AlternatingSum.value_termThreshold]
    exact small
  refine arctanSeries_eq_ok.2 ⟨s, squared, .start x, ?_, rfl⟩
  rw [OddSum.limit, OddSum.run, if_pos done]
  rfl

/-! ## The inverse tangent -/

theorem half_lt_abs_iff : ofParts 5 (-1) < x.abs ↔ 1 / 2 < |x.value| := by
  have half : (ofParts 5 (-1)).value = 1 / 2 := by
    rw [value_ofParts]
    norm_num
  rw [lt_iff_value, value_abs, half]

theorem arctanHalving_of_large {limit : ℕ} {half angle : Decimal} (large : 1 / 2 < |x.value|)
    (halved : x.halvedTangent = .ok half) (rest : arctanHalving limit half = .ok angle) :
    arctanHalving (limit + 1) x = liftM (angle.mul 2) := by
  rw [arctanHalving, if_pos (half_lt_abs_iff.2 large), halved]
  change (arctanHalving limit half >>= fun a => liftM (a.mul 2)) = _
  rw [rest]
  rfl

theorem arctanHalving_of_small (limit : ℕ) (small : |x.value| ≤ 1 / 2) :
    arctanHalving limit x = liftM x.arctanSeries := by
  cases limit with
  | zero => rfl
  | succ limit => rw [arctanHalving, if_neg (mt half_lt_abs_iff.1 (not_lt.2 small))]

theorem Doublable.exists_double {b : ℚ} (h : x.Doublable b) (bounded : b ≤ 10 ^ 6) :
    ∃ y, x.mul 2 = .ok y ∧ y.Doublable (4 * b) := by
  have top : exponentBound.toNat = 999999 := rfl
  have two : (2 : Decimal).value = 2 := value_ofNat 2
  have grid : OnGrid (-300000) (x.value * (2 : Decimal).value) := by
    rw [two, mul_comm]
    exact_mod_cast h.grid.intCast_mul 2
  have size : |x.value * (2 : Decimal).value| ≤ 2 * b := by
    rw [two, abs_mul, abs_two]
    linarith [h.bounded]
  have inside : |x.value * (2 : Decimal).value| ≤ 10 ^ 300000 := by
    have small : |x.value * (2 : Decimal).value| ≤ 10 ^ 7 := by linarith
    exact small.trans (pow_le_pow_right₀ (by norm_num) (by omega))
  obtain ⟨y, doubled, rounded⟩ := exists_mul h.isWorking.digits_le
    (by decide : (2 : Decimal).digits ≤ working.digits)
    ((grid.within (e := 300000) inside).mono (by omega))
  have near := nearest_bounds (abs_nonneg (x.value * (2 : Decimal).value))
  rw [← abs_nearest, ← rounded] at near
  exact ⟨y, doubled, yields_mul _ _ _ doubled, rounded ▸ grid.nearest _, by linarith⟩

theorem exists_arctanHalving_of_small (limit : ℕ) (hx : x.IsWorking) (front : 1 / 10 ≤ |x.value|)
    (small : |x.value| ≤ 1 / 2) : ∃ y, arctanHalving limit x = .ok y ∧ y.Doublable 1000 := by
  have moderate : Within 136 x.value := by
    refine .inr ⟨le_trans ?_ front, small.trans ?_⟩ <;> norm_num
  obtain ⟨y, series, doublable⟩ := exists_arctanSeries hx small moderate
  rw [arctanHalving_of_small limit small]
  exact ⟨y, liftM_eq_ok.2 series, doublable⟩

/-- Halving the angle once more. -/
theorem exists_arctanHalving_succ {limit : ℕ} {b : ℚ} {half : Decimal} (large : 1 / 2 < |x.value|)
    (halved : x.halvedTangent = .ok half) (bounded : b ≤ 10 ^ 6)
    (rest : ∃ y, arctanHalving limit half = .ok y ∧ y.Doublable b) :
    ∃ y, arctanHalving (limit + 1) x = .ok y ∧ y.Doublable (4 * b) := by
  obtain ⟨angle, answer, doublable⟩ := rest
  obtain ⟨y, doubled, next⟩ := doublable.exists_double bounded
  refine ⟨y, ?_, next⟩
  rw [arctanHalving_of_large large halved answer]
  exact liftM_eq_ok.2 doubled

/-- One halving is enough for a number that is not much above one. -/
theorem exists_arctanHalving_of_near_one (limit : ℕ) (hx : x.IsWorking) (front : 1 / 10 ≤ |x.value|)
    (near_one : |x.value| ≤ 1004 / 1000) :
    ∃ y, arctanHalving (limit + 1) x = .ok y ∧ y.Doublable 4000 := by
  rcases le_or_gt |x.value| (1 / 2) with small | large
  · obtain ⟨y, answer, doublable⟩ := exists_arctanHalving_of_small (limit + 1) hx front small
    exact ⟨y, answer, doublable.isWorking, doublable.grid, by linarith [doublable.bounded]⟩
  · have moderate : Within 136 x.value := by
      refine .inr ⟨le_trans ?_ front, near_one.trans ?_⟩ <;> norm_num
    obtain ⟨s, squared, -⟩ := exists_half hx moderate (by omega)
    obtain ⟨half, halved, hh, above, -, below⟩ := exists_halvedTangent hx large squared
    have rest := exists_arctanHalving_of_small limit hh above (below near_one)
    obtain ⟨y, answer, doublable⟩ := exists_arctanHalving_succ large halved (by norm_num) rest
    exact ⟨y, answer, doublable.isWorking, doublable.grid, by linarith [doublable.bounded]⟩

/-- Two halvings are enough for every number. -/
theorem exists_arctan_of_large (hx : x.IsWorking) (large : 1 / 2 < |x.value|)
    (squared : x.sqr = .ok s) : ∃ y, x.arctan = .ok y ∧ y.Doublable 16000 := by
  obtain ⟨half, halved, hh, front, near_one, -⟩ := exists_halvedTangent hx large squared
  have rest := exists_arctanHalving_of_near_one 6 hh front near_one
  obtain ⟨y, answer, doublable⟩ := exists_arctanHalving_succ large halved (by norm_num) rest
  exact ⟨y, answer, doublable.isWorking, doublable.grid, by linarith [doublable.bounded]⟩

/-- Where the square of the number is in bounds there is an inverse tangent, of a moderate size. -/
theorem exists_arctan (hx : x.IsWorking) (squared : x.sqr = .ok s) :
    ∃ y, x.arctan = .ok y ∧ |y.value| ≤ 16000 := by
  rcases le_or_gt |x.value| (1 / 2) with small | large
  · have series : x.arctan = liftM x.arctanSeries := arctanHalving_of_small 8 small
    have top : |x.value| ≤ 10 ^ 136 := small.trans (by norm_num)
    rw [series]
    rcases within_or_small 136 top with moderate | tiny
    · obtain ⟨y, answer, doublable⟩ := exists_arctanSeries hx small moderate
      exact ⟨y, liftM_eq_ok.2 answer, by linarith [doublable.bounded]⟩
    · exact ⟨x, liftM_eq_ok.2 (arctanSeries_of_small tiny squared), by linarith⟩
  · obtain ⟨y, answer, doublable⟩ := exists_arctan_of_large hx large squared
    exact ⟨y, answer, doublable.bounded⟩

/-- The inverse tangent has an answer where the square of the number is in bounds. -/
theorem exists_arctan_iff (hx : x.IsWorking) : (∃ y, x.arctan = .ok y) ↔ ∃ s, x.sqr = .ok s := by
  constructor
  · rintro ⟨y, h⟩
    rcases le_or_gt |x.value| (1 / 2) with small | large
    · have series : x.arctan = liftM x.arctanSeries := arctanHalving_of_small 8 small
      rw [series] at h
      obtain ⟨s, squared, -⟩ := arctanSeries_eq_ok.1 (liftM_eq_ok.1 h)
      exact ⟨s, squared⟩
    · rw [arctan, arctanHalving, if_pos (half_lt_abs_iff.2 large)] at h
      obtain ⟨half, halved, -⟩ := bind_eq_ok.1 h
      obtain ⟨s, squared, -⟩ := halvedTangent_eq_ok.1 halved
      exact ⟨s, squared⟩
  · rintro ⟨s, squared⟩
    obtain ⟨y, answer, -⟩ := exists_arctan hx squared
    exact ⟨y, answer⟩

/-! ## The three functions -/

/-- Arctangent, and of a number of up to a hundred digits sine and cosine, fail exactly where the square
of the number leaves the bounds of the exponents, which has nothing to do with their own values; the
cosine also where half of this square does. -/
theorem trigonometry_answers_iff (hx : x.IsWorking) :
    ((∃ y, x.arctan = .ok y) ↔ ∃ s, x.sqr = .ok s) ∧
      (|x.value| ≤ 10 ^ 100 →
        ((∃ y, x.sin = .ok y) ↔ ∃ s, x.sqr = .ok s) ∧
          ((∃ y, x.cos = .ok y) ↔ ∃ s half, x.sqr = .ok s ∧ s.div 2 = .ok half)) :=
  ⟨exists_arctan_iff hx, fun bounded => ⟨exists_sin_iff hx bounded, exists_cos_iff hx bounded⟩⟩

/-- All three have an answer at ten. -/
theorem trigonometry_answers_ten :
    IsWorking 10 ∧ |(10 : Decimal).value| ≤ 10 ^ 100 ∧ (∃ y, (10 : Decimal).arctan = .ok y) ∧
      (∃ y, (10 : Decimal).sin = .ok y) ∧ ∃ y, (10 : Decimal).cos = .ok y := by
  have ten : IsWorking 10 := by decide
  have bounded : |(10 : Decimal).value| ≤ 10 ^ 100 := by
    rw [value_ofNat]
    norm_num
  have square : (10 : Decimal).sqr = .ok 100 := by decide +kernel
  have half : (100 : Decimal).div 2 = .ok 50 := by decide +kernel
  obtain ⟨arctan, sine_cosine⟩ := trigonometry_answers_iff ten
  obtain ⟨sine, cosine⟩ := sine_cosine bounded
  exact ⟨ten, bounded, arctan.2 ⟨100, square⟩, sine.2 ⟨100, square⟩,
    cosine.2 ⟨100, 50, square, half⟩⟩

/-- The inverse tangent of a large number is a quarter of a turn, and the sine of a small one is the
number itself; yet both fail. -/
theorem trigonometry_fails :
    let large : Decimal := ⟨1, 600000, .inl (by decide)⟩
    let small : Decimal := ⟨1, -600000, .inl (by decide)⟩
    large.IsWorking ∧ small.IsWorking ∧ |small.value| ≤ 10 ^ 100 ∧
      (¬∃ y, large.arctan = .ok y) ∧ (¬∃ y, small.arctan = .ok y) ∧ (¬∃ y, small.sin = .ok y) ∧
      ¬∃ y, small.cos = .ok y := by
  intro large small
  have working_large : large.IsWorking := by decide
  have working_small : small.IsWorking := by decide
  have bounded : |small.value| ≤ 10 ^ 100 := by
    have below := abs_value_lt (x := small) (mt value_eq_zero_iff.1 (by decide))
    have tiny : (10 : ℚ) ^ (small.adjusted + 1) ≤ 10 ^ (100 : ℤ) :=
      zpow_le_zpow_right₀ (by norm_num) (by decide)
    exact_mod_cast below.le.trans tiny
  have overflow : ¬∃ s, large.sqr = .ok s := by
    have failed : large.sqr = .error .overflow := by decide +kernel
    rw [failed]
    exact nofun
  have underflow : ¬∃ s, small.sqr = .ok s := by
    have failed : small.sqr = .error .underflow := by decide +kernel
    rw [failed]
    exact nofun
  have no_cosine : ¬∃ y, small.cos = .ok y := by
    rw [exists_cos_iff working_small bounded]
    rintro ⟨s, half, squared, -⟩
    exact underflow ⟨s, squared⟩
  exact ⟨working_large, working_small, bounded, mt (exists_arctan_iff working_large).1 overflow,
    mt (exists_arctan_iff working_small).1 underflow,
    mt (exists_sin_iff working_small bounded).1 underflow, no_cosine⟩

end Calculator.Decimal
