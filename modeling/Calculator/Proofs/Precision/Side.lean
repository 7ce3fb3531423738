import Calculator.Proofs.Error
import Calculator.Proofs.Precision.Power

/-!
# The side of one

Products and roundings of magnitudes that are at least one are at least one, and those of magnitudes
that are at most one are at most one; a reciprocal changes the side. So what leaves the exponent
bounds in a computation on one side is an overflow above one and an underflow below.
-/

namespace Calculator.Precision

/-- Where a magnitude stands to one. -/
inductive Side where
  | above
  | below

namespace Side

/-- The number is on this side; one is on both. -/
def Has : Side → ℚ → Prop
  | above, q => 1 ≤ |q|
  | below, q => q ≠ 0 ∧ |q| ≤ 1

/-- The bound that is met on this side. -/
def condition : Side → Condition
  | above => .overflow
  | below => .underflow

/-- The side of the inverses. -/
def inverse : Side → Side
  | above => below
  | below => above

/-- The number has the sign of a logarithm on this side. -/
def HasLog : Side → ℚ → Prop
  | above, q => 0 ≤ q
  | below, q => q ≤ 0

variable {s : Side} {p : Precision} {q q' : ℚ} {d n : ℕ} {x y : Decimal}
  {r : Except Condition Decimal} {f : Decimal → Except Condition Decimal}

/-- Zero is on no side. -/
theorem Has.ne_zero (h : s.Has q) : q ≠ 0 := by
  cases s with
  | above =>
    rintro rfl
    rw [Has, abs_zero] at h
    exact absurd h (by norm_num)
  | below => exact h.1

/-- One is on both sides. -/
theorem has_one (s : Side) : s.Has 1 := by
  cases s <;> simp [Has]

/-- Products stay on their side. -/
theorem Has.mul (hq : s.Has q) (hq' : s.Has q') : s.Has (q * q') := by
  cases s with
  | above =>
    rw [Has, abs_mul]
    exact one_le_mul_of_one_le_of_one_le hq hq'
  | below =>
    refine ⟨mul_ne_zero hq.1 hq'.1, ?_⟩
    rw [abs_mul]
    exact mul_le_one₀ hq.2 (abs_nonneg _) hq'.2

/-- Inverses go to the other side. -/
theorem Has.inv (h : s.Has q) : s.inverse.Has q⁻¹ := by
  have pos : 0 < |q| := abs_pos.2 h.ne_zero
  cases s with
  | above =>
    refine ⟨inv_ne_zero h.ne_zero, ?_⟩
    rw [abs_inv]
    exact inv_le_one_of_one_le₀ h
  | below =>
    rw [inverse, Has, abs_inv]
    exact (one_le_inv₀ pos).2 h.2

theorem Has.pow (h : s.Has q) (n : ℕ) : s.Has (q ^ n) := by
  induction n with
  | zero =>
    rw [pow_zero]
    exact s.has_one
  | succ n ih =>
    rw [pow_succ]
    exact ih.mul h

theorem Has.neg (h : s.Has q) : s.Has (-q) := by
  cases s with
  | above => rwa [Has, abs_neg]
  | below => exact ⟨neg_ne_zero.2 h.1, by rw [abs_neg]; exact h.2⟩

theorem Has.abs (h : s.Has q) : s.Has |q| := by
  cases s with
  | above => rwa [Has, abs_abs]
  | below => exact ⟨abs_ne_zero.2 h.1, by rw [abs_abs]; exact h.2⟩

/-- Rounding does not pass one. -/
theorem Has.nearest (digit : 0 < d) (h : s.Has q) : s.Has (nearest d q) := by
  cases s with
  | above => exact one_le_abs_nearest digit h
  | below => exact ⟨mt (nearest_eq_zero_iff digit).1 h.1, abs_nearest_le_one digit h.2⟩

/-- Zero is the logarithm of one, which is on both sides. -/
theorem hasLog_zero (s : Side) : s.HasLog 0 := by
  cases s <;> exact le_rfl

theorem hasLog_intCast {k : ℤ} : s.HasLog k ↔ match s with
    | above => 0 ≤ k
    | below => k ≤ 0 := by
  cases s <;> simp [HasLog]

/-- Rounding does not change a sign. -/
theorem HasLog.nearest (h : s.HasLog q) : s.HasLog (nearest d q) := by
  cases s with
  | above => exact nearest_nonneg h
  | below => exact nearest_nonpos h

/-- Positive factors keep the sign of a logarithm. -/
theorem HasLog.mul_pos (h : s.HasLog q) (pos : 0 < q') : s.HasLog (q * q') := by
  cases s with
  | above => exact mul_nonneg h pos.le
  | below => exact mul_nonpos_of_nonpos_of_nonneg h pos.le

/-- A negative factor inverts. -/
theorem HasLog.mul_neg (h : s.HasLog q) (neg : q' < 0) : s.inverse.HasLog (q * q') := by
  cases s with
  | above => exact mul_nonpos_of_nonneg_of_nonpos h neg.le
  | below => exact mul_nonneg_of_nonpos_of_nonpos h neg.le

/-! ## Answers on a side -/

/-- The answer is on this side, or the bound there. -/
structure Keeps (s : Side) (r : Except Condition Decimal) : Prop where
  has : ∀ x, r = .ok x → s.Has x.value
  failsWith : FailsWith (· = s.condition) r

/-- A value on the side keeps to it. -/
theorem Keeps.ok (h : s.Has x.value) : s.Keeps (.ok x) where
  has := by
    rintro _ ⟨⟩
    exact h
  failsWith := .ok x

/-- Steps that keep to a side keep to it together. -/
theorem Keeps.bind (first : s.Keeps r) (rest : ∀ x, s.Has x.value → s.Keeps (f x)) :
    s.Keeps (r >>= f) where
  has := by
    intro y value
    obtain ⟨x, hx, hy⟩ := bind_eq_ok.1 value
    exact (rest x (first.has x hx)).has y hy
  failsWith := first.failsWith.bind fun x hx => (rest x (first.has x hx)).failsWith

/-- Whatever is rounded from an exact result on a side keeps to this side, and so do the operations
below. -/
theorem Keeps.of_answers (digit : 0 < d) (h : s.Has q) (answer : Answers d q r) : s.Keeps r := by
  have bound : exponentBound = 999999 := rfl
  have one : Int.log 10 (1 : ℚ) = 0 := Int.log_one_right _
  have rounded := h.nearest digit
  have pos : 0 < |Calculator.nearest d q| := abs_pos.2 rounded.ne_zero
  cases answer with
  | value x same fits => exact .ok (same ▸ rounded)
  | overflow nonzero large =>
    refine ⟨nofun, .error ?_⟩
    cases s with
    | above => rfl
    | below =>
      have log := Int.log_mono_right (b := 10) pos rounded.2
      omega
  | underflow nonzero small =>
    refine ⟨nofun, .error ?_⟩
    cases s with
    | above =>
      have log := Int.log_mono_right (b := 10) zero_lt_one rounded
      omega
    | below => rfl

/-! ## The operations -/

theorem Has.lift (digit : 0 < p.digits) (h : s.Has x.value) : s.Has (p.lift x).value := by
  rw [value_lift x digit]
  exact h.nearest digit

theorem keeps_round (digit : 0 < p.digits) (h : s.Has x.value) : s.Keeps (p.round x) :=
  .of_answers digit h (round_answers x digit)

theorem keeps_multiply (digit : 0 < p.digits) (hx : s.Has x.value) (hy : s.Has y.value) :
    s.Keeps (p.multiply x y) :=
  .of_answers digit ((hx.lift digit).mul (hy.lift digit)) (multiply_answers x y digit)

/-- A reciprocal is on the other side. -/
theorem keeps_reciprocal (digit : 0 < p.digits) (h : s.Has x.value) :
    s.inverse.Keeps (p.divide 1 x) := by
  have answer := divide_answers (p := p) (a := 1) digit h.ne_zero
  have one : (p.lift 1).value = 1 := by
    rw [value_lift 1 digit, Decimal.value_one, nearest_one digit]
  rw [one, one_div] at answer
  exact .of_answers digit (h.lift digit).inv answer

/-- Repeated squaring does not leave the side of its two numbers. -/
theorem keeps_multiplyPower (digit : 0 < p.digits) (limit n : ℕ) (hx : s.Has x.value)
    (hy : s.Has y.value) : s.Keeps (p.multiplyPower limit n x y) := by
  induction limit generalizing n x y with
  | zero => exact .ok hx
  | succ limit ih =>
    by_cases none : n = 0
    · rw [multiplyPower, if_pos none]
      exact .ok hx
    · rw [multiplyPower_succ limit none]
      refine Keeps.bind ?_ fun result hr => ?_
      · split
        · exact keeps_multiply digit hx hy
        · exact .ok hx
      · split
        · exact .ok hr
        · exact (keeps_multiply digit hy hy).bind fun square hs => ih (n / 2) hr hs

/-- Repeated squaring starts from one, which is on both sides, and keeps to the side of the base. -/
theorem keeps_naturalPower (digit : 0 < p.digits) (n : ℕ) (h : s.Has x.value) :
    s.Keeps (p.naturalPower x n) := by
  refine (keeps_round digit h).bind fun square hs => keeps_multiplyPower digit _ n ?_ hs
  rw [Decimal.value_one]
  exact s.has_one

end Side

end Calculator.Precision
