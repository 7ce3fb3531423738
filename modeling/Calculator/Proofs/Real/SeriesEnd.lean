import Calculator.Proofs.Real.InverseTangent

/-!
# The sums of series end

The loops of the series have no counter of their own, and the inverse tangent halves its angle as long
as its tangent is large. Here they run without the limits of `alternatingSeries`, `arctanSeries` and
`arctanHalving`: what they end with, an answer or an error, they end with after a hundred terms of a sine
or a cosine, after two hundred and fifty of an inverse tangent, and after two halvings. The limits
are larger, so they make no difference.
-/

namespace Calculator.Decimal

variable {x y : Decimal} {halvings steps limit : ℕ} {r : Except ArithmeticError Decimal}
  {answer : Except MathError Decimal}

/-! ## Sine and cosine -/

/-- The series ends with this after `k` steps of its loop, which has no limit. An angle without a square
does not get to the loop. -/
inductive AlternatingSum.EndsAfter (first angle count : Decimal) :
    ℕ → Except ArithmeticError Decimal → Prop where
  | notEntered {e : ArithmeticError} (failure : angle.sqr = .error e) :
    EndsAfter first angle count 0 (.error e)
  | left {square : Decimal} {k : ℕ} {r : Except ArithmeticError AlternatingSum}
    (squared : angle.sqr = .ok square)
    (leaves : LeavesAfter (step square) isDone k (start first count) r) :
    EndsAfter first angle count k (r.map sum)

/-- The limit makes no difference to a series that ends before it. -/
theorem AlternatingSum.EndsAfter.alternatingSeries_eq {first angle count : Decimal} {k : ℕ}
    (h : EndsAfter first angle count k r) (enough : k ≤ AlternatingSum.limit) :
    alternatingSeries first angle count = r := by
  cases h with
  | notEntered failure => rw [alternatingSeries, failure]; rfl
  | left squared leaves =>
    rw [alternatingSeries, squared]
    change (AlternatingSum.run _ _ _ >>= fun s => pure s.sum) = _
    rw [(isLoop _).run_of_leavesAfter leaves enough]
    rfl

/-- Of an angle of up to a turn the series of sine and cosine end. -/
theorem exists_endsAfter_alternatingSeries {i : ℕ} {angle first : Decimal} (parity : i ≤ 1)
    (ha : angle.IsWorking) (hf : first.IsWorking) (value : first.value = angle.value ^ i)
    (small : |angle.value| ≤ 63 / 10) :
    ∃ k ≤ 100, ∃ r, AlternatingSum.EndsAfter first angle (ofInt (i + 1 : ℕ)) k r ∧
      alternatingSeries first angle (ofInt (i + 1 : ℕ)) = r := by
  have enough : 100 ≤ AlternatingSum.limit := by decide
  cases squared : angle.sqr with
  | error e =>
    have ends : AlternatingSum.EndsAfter first angle (ofInt (i + 1 : ℕ)) 0 (.error e) :=
      .notEntered squared
    exact ⟨0, by omega, _, ends, ends.alternatingSeries_eq (by omega)⟩
  | ok square =>
    obtain ⟨k, few, r, leaves⟩ :=
      (AlternatingSum.follows_start_pow hf value).exists_leavesAfter (N := 100)
        (approximates_sqr ha squared) (by omega) (by omega) (by omega)
        (abs_alternatingTerm_le parity small) (abs_unsignedTerm_hundred_le parity small)
    have ends := AlternatingSum.EndsAfter.left squared leaves
    exact ⟨k, few, _, ends, ends.alternatingSeries_eq (few.trans enough)⟩

/-! ## Inverse tangent -/

/-- The series ends with this after `k` steps of its loop, which has no limit. A number without a square
does not get to the loop. -/
inductive OddSum.EndsAfter (x : Decimal) : ℕ → Except ArithmeticError Decimal → Prop where
  | notEntered {e : ArithmeticError} (failure : x.sqr = .error e) : EndsAfter x 0 (.error e)
  | left {square : Decimal} {k : ℕ} {r : Except ArithmeticError OddSum}
    (squared : x.sqr = .ok square) (leaves : LeavesAfter (step (-square)) isDone k (start x) r) :
    EndsAfter x k (r.map sum)

/-- The limit makes no difference to a series that ends before it. -/
theorem OddSum.EndsAfter.arctanSeries_eq {k : ℕ} (h : EndsAfter x k r) (enough : k ≤ OddSum.limit) :
    x.arctanSeries = r := by
  cases h with
  | notEntered failure => rw [arctanSeries, failure]; rfl
  | left squared leaves =>
    rw [arctanSeries, squared]
    change (OddSum.run _ _ _ >>= fun s => pure s.sum) = _
    rw [(isLoop _).run_of_leavesAfter leaves enough]
    rfl

/-- Of a number of up to a half the series of the inverse tangent ends. -/
theorem exists_endsAfter_arctanSeries (hx : x.IsWorking) (small : |x.value| ≤ 1 / 2) :
    ∃ k ≤ 250, ∃ r, OddSum.EndsAfter x k r := by
  cases squared : x.sqr with
  | error e => exact ⟨0, by omega, _, .notEntered squared⟩
  | ok square =>
    obtain ⟨k, few, r, leaves⟩ :=
      (OddSum.follows_start hx).exists_leavesAfter (approximates_sqr hx squared).neg small
    exact ⟨k, few, _, .left squared leaves⟩

/-- The inverse tangent halves the angle this many times, takes this many steps in the series of what
is left, and ends with this answer; there is no limit to either. -/
inductive ArctanEndsAfter : ℕ → ℕ → Decimal → Except MathError Decimal → Prop where
  | series {x : Decimal} {steps : ℕ} {r : Except ArithmeticError Decimal}
    (small : ¬ofParts 5 (-1) < x.abs) (ends : OddSum.EndsAfter x steps r) :
    ArctanEndsAfter 0 steps x (liftM r)
  | notHalved {x : Decimal} {e : MathError} (large : ofParts 5 (-1) < x.abs)
    (failure : x.halvedTangent = .error e) : ArctanEndsAfter 1 0 x (.error e)
  | halved {x half : Decimal} {halvings steps : ℕ} {answer : Except MathError Decimal}
    (large : ofParts 5 (-1) < x.abs) (once : x.halvedTangent = .ok half)
    (rest : ArctanEndsAfter halvings steps half answer) :
    ArctanEndsAfter (halvings + 1) steps x (answer >>= fun angle => liftM (angle.mul 2))

/-- The limits make no difference to an inverse tangent that ends before them. -/
theorem ArctanEndsAfter.arctanHalving_eq (h : ArctanEndsAfter halvings steps x answer)
    (enough : halvings ≤ limit) (few : steps ≤ OddSum.limit) : arctanHalving limit x = answer := by
  induction h generalizing limit with
  | series small ends =>
    have sum := ends.arctanSeries_eq few
    cases limit with
    | zero => rw [arctanHalving, sum]
    | succ limit => rw [arctanHalving, if_neg small, sum]
  | notHalved large failure =>
    obtain ⟨limit, rfl⟩ := Nat.exists_eq_succ_of_ne_zero (by omega : limit ≠ 0)
    rw [arctanHalving, if_pos large, failure]
    rfl
  | halved large once rest ih =>
    obtain ⟨limit, rfl⟩ := Nat.exists_eq_succ_of_ne_zero (by omega : limit ≠ 0)
    rw [arctanHalving, if_pos large, once]
    change (arctanHalving limit _ >>= fun angle => liftM (angle.mul 2)) = _
    rw [ih (by omega) few]

/-- A number above a half is halved once more than the tangent of half its angle. -/
theorem ArctanEndsAfter.exists_of_large {half : Decimal}
    (h : ArctanEndsAfter halvings steps x answer) (large : ofParts 5 (-1) < x.abs)
    (once : x.halvedTangent = .ok half) :
    ∃ n rest, halvings = n + 1 ∧ ArctanEndsAfter n steps half rest := by
  cases h with
  | series small => exact absurd large small
  | notHalved large failure => cases failure.symm.trans once
  | halved large same rest =>
    obtain rfl := Except.ok.inj (same.symm.trans once)
    exact ⟨_, _, rfl, rest⟩

/-- A number up to a half is not halved. -/
theorem ArctanEndsAfter.halvings_eq_zero (h : ArctanEndsAfter halvings steps x answer)
    (small : ¬ofParts 5 (-1) < x.abs) : halvings = 0 := by
  cases h with
  | series => rfl
  | notHalved large => exact absurd large small
  | halved large => exact absurd large small

/-- A number of up to a half is summed at once. -/
theorem exists_arctanEndsAfter_of_small (hx : x.IsWorking) (small : |x.value| ≤ 1 / 2) :
    ∃ steps ≤ 250, ∃ answer, ArctanEndsAfter 0 steps x answer := by
  obtain ⟨steps, few, r, ends⟩ := exists_endsAfter_arctanSeries hx small
  exact ⟨steps, few, _, .series (mt half_lt_abs_iff.1 (not_lt.2 small)) ends⟩

/-- One halving is enough for a number that is not much above one. -/
theorem exists_arctanEndsAfter_of_near_one (hx : x.IsWorking) (front : 1 / 10 ≤ |x.value|)
    (near_one : |x.value| ≤ 1004 / 1000) :
    ∃ halvings ≤ 1, ∃ steps ≤ 250, ∃ answer, ArctanEndsAfter halvings steps x answer := by
  rcases le_or_gt |x.value| (1 / 2) with small | large
  · exact ⟨0, by omega, exists_arctanEndsAfter_of_small hx small⟩
  · have moderate : Within 136 x.value := by
      refine .inr ⟨le_trans ?_ front, near_one.trans ?_⟩ <;> norm_num
    obtain ⟨s, squared, -⟩ := exists_half hx moderate (by omega)
    obtain ⟨half, once, hh, -, -, below⟩ := exists_halvedTangent hx large squared
    obtain ⟨steps, few, answer, rest⟩ := exists_arctanEndsAfter_of_small hh (below near_one)
    exact ⟨1, le_rfl, steps, few, _, .halved (half_lt_abs_iff.2 large) once rest⟩

/-- Two halvings are enough for every number: the first quotient is hardly above one, whatever the
roundings of the root and of the divisor. -/
theorem exists_arctanEndsAfter (hx : x.IsWorking) :
    ∃ halvings ≤ 2, ∃ steps ≤ 250, ∃ answer, ArctanEndsAfter halvings steps x answer := by
  rcases le_or_gt |x.value| (1 / 2) with small | large
  · exact ⟨0, by omega, exists_arctanEndsAfter_of_small hx small⟩
  · have branch := half_lt_abs_iff.2 large
    cases once : x.halvedTangent with
    | error e => exact ⟨1, by omega, 0, by omega, _, .notHalved branch once⟩
    | ok half =>
      obtain ⟨s, squared, -⟩ := halvedTangent_eq_ok.1 once
      obtain ⟨half', once', hh, front, near_one, -⟩ := exists_halvedTangent hx large squared
      obtain rfl := Except.ok.inj (once.symm.trans once')
      obtain ⟨halvings, most, steps, few, answer, rest⟩ :=
        exists_arctanEndsAfter_of_near_one hh front near_one
      exact ⟨halvings + 1, by omega, steps, few, _, .halved branch once rest⟩

/-! ## All loops -/

/-- The loops of sine and cosine are left after at most a hundred steps, the inverse tangent halves at
most twice and takes at most two hundred and fifty steps, and each gives what its loop ends with. -/
theorem series_loops_end {t : Decimal} (ht : t.IsWorking) (small : |t.value| ≤ 63 / 10)
    (hx : x.IsWorking) :
    (∃ k ≤ 100, ∃ r, AlternatingSum.EndsAfter t t 2 k r ∧ alternatingSeries t t 2 = r) ∧
      (∃ k ≤ 100, ∃ r, AlternatingSum.EndsAfter 1 t 1 k r ∧ alternatingSeries 1 t 1 = r) ∧
      ∃ halvings ≤ 2, ∃ steps ≤ 250, ∃ answer,
        ArctanEndsAfter halvings steps x answer ∧ x.arctan = answer := by
  have unit : (1 : Decimal).value = t.value ^ 0 := value_one.trans (pow_zero _).symm
  refine ⟨?_, ?_, ?_⟩
  · exact exists_endsAfter_alternatingSeries (i := 1) le_rfl ht ht (pow_one _).symm small
  · exact exists_endsAfter_alternatingSeries (i := 0) (by decide) ht isWorking_one unit small
  · obtain ⟨halvings, most, steps, few, answer, ends⟩ := exists_arctanEndsAfter hx
    have limits : 250 ≤ OddSum.limit := by decide
    exact ⟨halvings, most, steps, few, answer, ends,
      ends.arctanHalving_eq (by omega) (few.trans limits)⟩

/-- What is checked of an answer is checked of its value. -/
theorem exists_eq_ok_of_any {p : Decimal → Bool} (h : answer.toOption.any p) :
    ∃ y, answer = .ok y ∧ p y = true := by
  cases answer with
  | error e => cases h
  | ok y => exact ⟨y, rfl, h⟩

/-- The angle with tangent ten is halved twice. -/
theorem ArctanEndsAfter.halvings_eq_two (h : ArctanEndsAfter halvings steps 10 answer) :
    halvings = 2 := by
  have computed : (halvedTangent 10).toOption.any fun first =>
      decide (ofParts 5 (-1) < first.abs) && first.halvedTangent.toOption.any fun second =>
        decide (¬ofParts 5 (-1) < second.abs) := by
    decide +kernel
  obtain ⟨first, first_eq, computed⟩ := exists_eq_ok_of_any computed
  rw [Bool.and_eq_true, decide_eq_true_iff] at computed
  obtain ⟨second, second_eq, small⟩ := exists_eq_ok_of_any computed.2
  obtain ⟨once, rest, rfl, after_first⟩ := h.exists_of_large (by decide) first_eq
  obtain ⟨twice, rest, rfl, after_second⟩ := after_first.exists_of_large computed.1 second_eq
  rw [after_second.halvings_eq_zero (of_decide_eq_true small)]

/-- The terms for six grow to sixty-five before they fall. The angle with tangent ten is halved twice
and then summed; the first halving for 1E+600000 fails. -/
theorem series_loops_end_six :
    let large : Decimal := ⟨1, 600000, .inl (by decide)⟩
    IsWorking 6 ∧ |(6 : Decimal).value| ≤ 63 / 10 ∧ IsWorking 10 ∧ large.IsWorking ∧
      (∃ k ≤ 100, ∃ r, AlternatingSum.EndsAfter 6 6 2 k r ∧ alternatingSeries 6 6 2 = r) ∧
      (∃ k ≤ 100, ∃ r, AlternatingSum.EndsAfter 1 6 1 k r ∧ alternatingSeries 1 6 1 = r) ∧
      (∃ steps ≤ 250, ∃ y, ArctanEndsAfter 2 steps 10 (.ok y) ∧ arctan 10 = .ok y) ∧
      ∃ halvings ≤ 2, ∃ steps ≤ 250, ∃ answer,
        ArctanEndsAfter halvings steps large answer ∧ large.arctan = answer := by
  intro large
  have six : IsWorking 6 := by decide
  have ten : IsWorking 10 := by decide
  have working : large.IsWorking := by decide
  have small : |(6 : Decimal).value| ≤ 63 / 10 := by
    rw [value_ofNat]
    norm_num
  have squared : (10 : Decimal).sqr = .ok 100 := by decide
  obtain ⟨sine, cosine, halvings, -, steps, few, answer, ends, answered⟩ :=
    series_loops_end six small ten
  obtain ⟨y, summed, -⟩ := exists_arctan ten squared
  obtain rfl := answered.symm.trans summed
  obtain rfl := ends.halvings_eq_two
  exact ⟨six, small, ten, working, sine, cosine, ⟨steps, few, y, ends, summed⟩,
    (series_loops_end six small working).2.2⟩

end Calculator.Decimal
