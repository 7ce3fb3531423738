import Calculator.Proofs.Real.InverseTangent

/-!
# When the inverse sine and cosine have an answer

The rounded square of a number below one is no larger than the number, so it lacks a unit of the last
place to one at least, and the cosine that the sine is divided by has sixty-eight zeros behind the
point at most. The quotient has a square within the bounds of the exponents, and so it has an inverse
tangent; nothing but an argument beyond one is refused.
-/

namespace Calculator.Decimal

open Precision (working exponentBound)

variable {x y s : Decimal}

/-! ## The cosine of a sine -/

/-- A number below one lacks a unit of its last place to one. -/
theorem IsWorking.abs_le_of_lt_one (hx : x.IsWorking) (small : |x.value| < 1) :
    |x.value| ≤ 1 - 10 ^ (-136 : ℤ) := by
  have nonneg := abs_nonneg x.value
  have rest : |(1 : Decimal).value - x.abs.value| = 1 - |x.value| := by
    rw [value_one, value_abs, abs_of_pos (by linarith)]
  have one : (1 : Decimal).IsWorking := isWorking_one
  have within := one.within_sub hx.abs value_one.ge le_rfl
    (rest.trans_le (by norm_num; linarith))
  have some : (1 : Decimal).value - x.abs.value ≠ 0 := by
    rw [← abs_pos, rest]
    linarith
  have least := (within.resolve_left some).1
  rw [rest] at least
  norm_num at least ⊢
  linarith

/-- A rounded square is not above a number below one. -/
theorem value_sqr_le (hx : x.IsWorking) (small : |x.value| ≤ 1) (squared : x.sqr = .ok s) :
    s.value ≤ |x.value| := by
  have digit := working_digits_pos
  have square : |x.value| ^ 2 ≤ |x.value| := by
    rw [pow_two]
    exact mul_le_of_le_one_left (abs_nonneg _) small
  have kept : nearest working.digits |x.value| = |x.value| := by
    rw [← abs_nearest, nearest_value hx.digits_le digit]
  have rounded := abs_nearest_mono (d := working.digits) (q := |x.value| ^ 2) (r := |x.value|) digit
    (by rwa [abs_pow, abs_abs])
  rw [← value_mul_self hx squared, kept, abs_abs] at rounded
  exact (le_abs_self _).trans rounded

/-- What the rounded square of a number below one leaves of one is at least a unit of the last
place. -/
theorem exists_one_sub_sqr (hx : x.IsWorking) (small : |x.value| < 1) (squared : x.sqr = .ok s) :
    ∃ rest, sub 1 s = .ok rest ∧ 10 ^ (-136 : ℤ) ≤ rest.value ∧ rest.value ≤ 1 := by
  have digit := working_digits_pos
  have top : exponentBound.toNat = 999999 := rfl
  have square := value_sqr_le hx small.le squared
  have nonneg := nonneg_of_sqr squared
  have short := hx.abs_le_of_lt_one small
  have low : (10 : ℚ) ^ (-136 : ℤ) ≤ |(1 : Decimal).value - s.value| := by
    rw [value_one]
    exact (by linarith : (10 : ℚ) ^ (-136 : ℤ) ≤ 1 - s.value).trans (le_abs_self _)
  have high : |(1 : Decimal).value - s.value| ≤ 1 := by
    rw [value_one, abs_of_nonneg (by linarith)]
    linarith
  have within : Within 136 ((1 : Decimal).value - s.value) :=
    .inr ⟨low, high.trans (one_le_pow₀ (by norm_num))⟩
  obtain ⟨rest, subtracted, value⟩ := exists_sub isWorking_one.digits_le
    (yields_sqr _ _ squared).digits_le (within.mono (by omega))
  have rounded : rest.value = nearest working.digits (1 - s.value) := by
    rw [value, ← value_one]
    rfl
  rw [value_one] at low high
  have bottom := zpow_le_abs_nearest digit low
  have front := abs_nearest_le_one digit high
  have sign : 0 ≤ nearest working.digits (1 - s.value) := nearest_nonneg (by linarith)
  rw [abs_of_nonneg sign] at bottom front
  exact ⟨rest, subtracted, by rwa [rounded], by rwa [rounded]⟩

/-- The root of a rest of one that is not too small. -/
theorem exists_cosine {rest : Decimal} (hr : rest.IsWorking) (low : 10 ^ (-136 : ℤ) ≤ rest.value)
    (high : rest.value ≤ 1) :
    ∃ c, rest.sqrt = .ok c ∧ 1 / 2 * 10 ^ (-68 : ℤ) ≤ c.value ∧ c.value ≤ 2 := by
  have pos : 0 < rest.value := (ten_zpow_pos _).trans_le low
  obtain ⟨c, rooted, upper⟩ := exists_sqrt hr pos
  have unit : ((1 : ℕ) * (10 : ℚ) ^ (-68 : ℤ)) ^ 2 ≤ rest.value := by
    rw [Nat.cast_one, one_mul, pow_two, ← ten_zpow_add]
    exact low
  have lower := le_sqrt hr pos (by norm_num) unit rooted
  refine ⟨c, rooted, ?_, le_of_sq_le_sq (by linarith) (by norm_num)⟩
  norm_num at lower ⊢
  linarith

/-! ## Answers -/

/-- The square of a quotient by the cosine is within the bounds. -/
theorem exists_sine_quotient {c : Decimal} (hx : x.IsWorking) (hc : c.IsWorking)
    (size : Within 400000 x.value) (low : 1 / 2 * 10 ^ (-68 : ℤ) ≤ c.value) (high : c.value ≤ 2) :
    ∃ q square, x.div c = .ok q ∧ q.IsWorking ∧ q.sqr = .ok square := by
  have digit := working_digits_pos
  have top : exponentBound.toNat = 999999 := rfl
  have pos : 0 < c.value := lt_of_lt_of_le (by positivity) low
  have divisor : Within 69 c.value := by
    rw [Within, abs_of_pos pos]
    refine .inr ⟨le_trans ?_ low, high.trans ?_⟩ <;> norm_num
  obtain ⟨q, quotient, value⟩ := exists_div hx.digits_le hc.digits_le pos.ne'
    ((size.div divisor).mono (by omega))
  have within : Within (400000 + 69 + 1) q.value := by
    rw [value]
    exact (size.div divisor).of_drift digit (few_roundings (by omega : 1 ≤ 10 ^ 18))
      (.nearest digit _)
  have hq := yields_div _ _ _ quotient
  obtain ⟨square, squared, -⟩ := exists_mul hq.digits_le hq.digits_le
    ((within.mul within).mono (by omega))
  exact ⟨q, square, quotient, hq, squared⟩

theorem exists_halfPi : ∃ quarter, halfPi = .ok quarter ∧ quarter.IsWorking ∧
    3 / 2 ≤ quarter.value ∧ quarter.value ≤ 8 / 5 := by
  have two : (2 : Decimal).value = 2 := value_ofNat 2
  have above := value_pi_lt
  have below := lt_value_pi
  have within : Within 1 (pi.value / (2 : Decimal).value) := by
    rw [two, Within, abs_of_pos (by linarith)]
    exact .inr ⟨by norm_num; linarith, by linarith⟩
  obtain ⟨quarter, halved, value⟩ := exists_div isWorking_pi.digits_le
    (by decide : (2 : Decimal).digits ≤ working.digits) (by rw [two]; norm_num)
    (within.mono (by decide))
  have rounded := nearest_bounds (q := pi.value / (2 : Decimal).value) (by rw [two]; linarith)
  rw [← value, two] at rounded
  exact ⟨quarter, halved, yields_div _ _ _ halved, by linarith, by linarith⟩

/-- A sine that is not too small has an angle, which is of a moderate size. -/
theorem exists_arcsin (hx : x.IsWorking) (size : Within 400000 x.value) (domain : |x.value| ≤ 1) :
    ∃ y, x.arcsin = .ok y ∧ |y.value| ≤ 16000 := by
  obtain ⟨quarter, halved, -, above, below⟩ := exists_halfPi
  have turned : (liftM halfPi : Except MathError Decimal) = .ok quarter := liftM_eq_ok.2 halved
  have angle : |quarter.value| ≤ 16000 := abs_le.2 ⟨by linarith, by linarith⟩
  unfold arcsin
  split
  · exact ⟨quarter, turned, angle⟩
  · rename_i front
    split
    · refine ⟨-quarter, ?_, by rwa [value_neg, abs_neg]⟩
      rw [turned]
      rfl
    · rename_i back
      have inside : |x.value| < 1 := by
        refine domain.lt_of_ne fun unit => ?_
        rcases eq_or_eq_neg_of_abs_eq unit with one | minus
        · exact front (value_injective (one.trans value_one.symm))
        · exact back (value_injective (minus.trans (by rw [value_neg, value_one])))
      rw [if_neg (by rw [lt_iff_value, value_one, value_abs]; exact not_lt.2 domain)]
      have top : exponentBound.toNat = 999999 := rfl
      obtain ⟨square, squared, -⟩ := exists_mul hx.digits_le hx.digits_le
        ((size.mul size).mono (by omega))
      obtain ⟨rest, subtracted, low, high⟩ := exists_one_sub_sqr hx inside squared
      obtain ⟨c, rooted, least, most⟩ := exists_cosine (yields_sub _ _ _ subtracted) low high
      obtain ⟨q, again, quotient, hq, moderate⟩ :=
        exists_sine_quotient hx (yields_sqrt _ _ rooted) size least most
      obtain ⟨y, answer, bounded⟩ := exists_arctan hq moderate
      refine ⟨y, ?_, bounded⟩
      simp only [bind_eq_ok, liftM_eq_ok]
      exact ⟨square, squared, rest, subtracted, c, rooted, q, quotient, answer⟩

/-- A quarter of a turn less an angle. -/
theorem exists_sub_angle {quarter : Decimal} (hq : quarter.IsWorking) (above : 3 / 2 ≤ quarter.value)
    (below : quarter.value ≤ 8 / 5) (hy : y.IsWorking) (bounded : |y.value| ≤ 16000) :
    ∃ z, quarter.sub y = .ok z := by
  have top : exponentBound.toNat = 999999 := rfl
  obtain ⟨low, high⟩ := abs_le.1 bounded
  have size : |quarter.value - y.value| ≤ 10 ^ 136 :=
    (abs_le.2 ⟨by linarith, by linarith⟩ : |quarter.value - y.value| ≤ 16002).trans (by norm_num)
  have within := hq.within_sub hy (by linarith) le_rfl size
  obtain ⟨z, subtracted, -⟩ := exists_sub hq.digits_le hy.digits_le (within.mono (by omega))
  exact ⟨z, subtracted⟩

theorem exists_arccos (hx : x.IsWorking) (size : Within 400000 x.value) (domain : |x.value| ≤ 1) :
    ∃ y, x.arccos = .ok y := by
  obtain ⟨quarter, halved, hq, above, below⟩ := exists_halfPi
  obtain ⟨angle, sine, bounded⟩ := exists_arcsin hx size domain
  obtain ⟨y, subtracted⟩ := exists_sub_angle hq above below (yields_arcsin _ _ sine) bounded
  refine ⟨y, ?_⟩
  unfold arccos
  rw [if_neg (by rw [lt_iff_value, value_one, value_abs]; exact not_lt.2 domain)]
  simp only [bind_eq_ok, liftM_eq_ok]
  exact ⟨quarter, halved, angle, sine, subtracted⟩

/-! ## Arguments that are refused -/

theorem arcsin_of_beyond (beyond : 1 < |x.value|) :
    x.arcsin = .error (.invalidArgument "asin" .arcsine) := by
  have front : x ≠ 1 := by
    rintro rfl
    rw [value_one, abs_one] at beyond
    exact lt_irrefl 1 beyond
  have back : x ≠ -1 := by
    rintro rfl
    rw [value_neg, value_one, abs_neg, abs_one] at beyond
    exact lt_irrefl 1 beyond
  unfold arcsin
  rw [if_neg front, if_neg back, if_pos (by rwa [lt_iff_value, value_one, value_abs])]
  rfl

theorem arccos_of_beyond (beyond : 1 < |x.value|) :
    x.arccos = .error (.invalidArgument "acos" .arccosine) := by
  unfold arccos
  rw [if_pos (by rwa [lt_iff_value, value_one, value_abs])]
  rfl

/-- Inverse sine and cosine refuse exactly the numbers beyond one, as an argument outside their domain,
and have an answer at every other one that is zero or not too small; below one the square of the cosine
is positive. -/
theorem arcsin_arccos_domain (hx : x.IsWorking)
    (size : x.value = 0 ∨ 10 ^ (-400000 : ℤ) ≤ |x.value|) :
    (x.arcsin = .error (.invalidArgument "asin" .arcsine) ↔ 1 < |x.value|) ∧
      (x.arccos = .error (.invalidArgument "acos" .arccosine) ↔ 1 < |x.value|) ∧
      (|x.value| ≤ 1 → (∃ y, x.arcsin = .ok y) ∧ ∃ y, x.arccos = .ok y) ∧
      (|x.value| < 1 → ∃ square rest, x.sqr = .ok square ∧ sub 1 square = .ok rest ∧
        0 < rest.value) := by
  have top : exponentBound.toNat = 999999 := rfl
  have moderate (domain : |x.value| ≤ 1) : Within 400000 x.value :=
    size.imp_right fun low => ⟨low, domain.trans (one_le_pow₀ (by norm_num))⟩
  refine ⟨⟨fun refused => ?_, arcsin_of_beyond⟩, ⟨fun refused => ?_, arccos_of_beyond⟩,
    fun domain => ⟨?_, exists_arccos hx (moderate domain) domain⟩, fun inside => ?_⟩
  · by_contra domain
    obtain ⟨y, answer, -⟩ := exists_arcsin hx (moderate (not_lt.1 domain)) (not_lt.1 domain)
    cases refused.symm.trans answer
  · by_contra domain
    obtain ⟨y, answer⟩ := exists_arccos hx (moderate (not_lt.1 domain)) (not_lt.1 domain)
    cases refused.symm.trans answer
  · obtain ⟨y, answer, -⟩ := exists_arcsin hx (moderate domain) domain
    exact ⟨y, answer⟩
  · have within := moderate inside.le
    obtain ⟨square, squared, -⟩ := exists_mul hx.digits_le hx.digits_le
      ((within.mul within).mono (by omega))
    obtain ⟨rest, subtracted, low, -⟩ := exists_one_sub_sqr hx inside squared
    exact ⟨square, rest, squared, subtracted, (ten_zpow_pos _).trans_le low⟩

/-- The largest number below one has 136 nines; the rest of its rounded square is two units of the last
place, and the quotient by the root of it is close to `10 ^ 68`. -/
theorem arcsin_arccos_domain_nines :
    let x : Decimal := ⟨10 ^ 136 - 1, -136, .inl (by decide)⟩
    x.IsWorking ∧ 10 ^ (-400000 : ℤ) ≤ |x.value| ∧ |x.value| < 1 ∧ (∃ y, x.arcsin = .ok y) ∧
      (∃ y, x.arccos = .ok y) ∧ ∃ square rest, x.sqr = .ok square ∧ sub 1 square = .ok rest ∧
        0 < rest.value := by
  intro x
  have working : x.IsWorking := by decide +kernel
  have value : x.value = (10 ^ 136 - 1) * 10 ^ (-136 : ℤ) := by
    rw [Decimal.value]
    norm_num [x]
  have inside : |x.value| < 1 := by
    rw [value, abs_of_pos] <;> norm_num
  have front : (10 : ℚ) ^ (-1 : ℤ) ≤ |x.value| := by
    rw [value, abs_of_pos] <;> norm_num
  have size : (10 : ℚ) ^ (-400000 : ℤ) ≤ |x.value| :=
    (zpow_le_zpow_right₀ (by norm_num) (by norm_num)).trans front
  obtain ⟨-, -, answers, rest⟩ := arcsin_arccos_domain working (.inr size)
  obtain ⟨sine, cosine⟩ := answers inside.le
  exact ⟨working, size, inside, sine, cosine, rest inside⟩

end Calculator.Decimal
