import Mathlib.Analysis.Normed.Algebra.Exponential
import Mathlib.Analysis.SpecialFunctions.Artanh
import Mathlib.Analysis.SpecialFunctions.Complex.Arctan
import Mathlib.Analysis.SpecificLimits.Normed
import Calculator.Proofs.Decimal.Integral
import Calculator.Proofs.Decimal.Series

/-!
# What the scaled series sum

A sum of terms that are cut off follows the exact series. Each term is computed from the one before
and is a few units off, so a partial sum is off by a few units for every term, and the sum ends where
what is left of the exact series is a few units as well. The inverse hyperbolic tangent, the inverse
tangent and the exponential are sums of this kind, and the logarithms of two and ten and the ratio of
a circle are made of them.
-/

namespace Calculator.Series

variable {unit V r : ℝ} {f q : ℕ → ℝ} {sum : ℕ → ℕ → ℤ → ℤ} {head next : ℕ → ℤ → ℤ}
  {first limit m scale : ℕ} {c z : ℤ} {x : ℝ}

/-! ## What is left of a series -/

/-- A series whose terms fall at least geometrically has little more left than its next term. -/
theorem abs_tail_le (exact_sum : HasSum f V) (nonneg : 0 ≤ r) (below : r < 1)
    (falls : ∀ n, m ≤ n → |f (n + 1)| ≤ r * |f n|) :
    |V - ∑ k ∈ Finset.range m, f k| ≤ |f m| / (1 - r) := by
  have rest : HasSum (fun n => f (n + m)) (V - ∑ k ∈ Finset.range m, f k) :=
    (hasSum_nat_add_iff' m).2 exact_sum
  have terms (n : ℕ) : ‖f (n + m)‖ ≤ |f m| * r ^ n := by
    induction n with
    | zero => simp
    | succ n ih =>
      have next := falls (n + m) (Nat.le_add_left m n)
      have scaled := mul_le_mul_of_nonneg_left ih nonneg
      rw [Real.norm_eq_abs] at scaled ⊢
      rw [Nat.add_right_comm, pow_succ]
      linarith
  have bound := norm_sub_le_of_geometric_bound_of_hasSum below terms rest 0
  simpa [abs_sub_comm] using bound

/-! ## Sums of terms that are cut off -/

/-- A sum that ends when the power it goes on with vanishes. -/
structure IsCutSum (sum : ℕ → ℕ → ℤ → ℤ) (head next : ℕ → ℤ → ℤ) : Prop where
  zero (m : ℕ) (c : ℤ) : sum 0 m c = 0
  succ (limit m : ℕ) (c : ℤ) :
    sum (limit + 1) m c = if c = 0 then 0 else head m c + sum limit (m + 1) (next m c)

/-- What it sums in units of `unit`: the terms `f`, which come from the powers `q`. -/
structure Follows (head next : ℕ → ℤ → ℤ) (unit : ℝ) (f q : ℕ → ℝ) (first : ℕ) : Prop where
  size (m : ℕ) : first ≤ m → |f m| ≤ |q m|
  falls (m : ℕ) : first ≤ m → |f (m + 1)| ≤ 2 / 3 * |f m|
  head (m : ℕ) (c : ℤ) : first ≤ m → |c - unit * q m| ≤ 3 → |head m c - unit * f m| ≤ 4
  next (m : ℕ) (c : ℤ) : first ≤ m → |c - unit * q m| ≤ 3 → |next m c - unit * q (m + 1)| ≤ 3

/-- What a sum leaves out is small when its next power is. -/
theorem Follows.abs_tail_le (follows : Follows head next unit f q first) (exact_sum : HasSum f V)
    (nonneg : 0 ≤ unit) (later : first ≤ m) (small : |unit * q m| ≤ 3) :
    |unit * (V - ∑ k ∈ Finset.range m, f k)| ≤ 9 := by
  have left := Series.abs_tail_le exact_sum (by norm_num) (by norm_num : (2 / 3 : ℝ) < 1)
    fun n after => follows.falls n (later.trans after)
  have size := mul_le_mul_of_nonneg_left (follows.size m later) nonneg
  have scaled := mul_le_mul_of_nonneg_left left nonneg
  have third : |f m| / (1 - 2 / 3) = 3 * |f m| := by ring
  rw [abs_mul, abs_of_nonneg nonneg] at small ⊢
  rw [third] at scaled
  linarith

/-- Every term adds a few units to the error, and so does the end. -/
theorem IsCutSum.near (loop : IsCutSum sum head next) (follows : Follows head next unit f q first)
    (exact_sum : HasSum f V) (nonneg : 0 ≤ unit) (later : first ≤ m)
    (close : |c - unit * q m| ≤ 3) (enough : |unit * q (m + limit)| ≤ 3) :
    |sum limit m c - unit * (V - ∑ k ∈ Finset.range m, f k)| ≤ 4 * limit + 9 := by
  induction limit generalizing m c with
  | zero =>
    have rest := follows.abs_tail_le exact_sum nonneg later enough
    rw [loop.zero, Int.cast_zero, zero_sub, abs_neg]
    simpa using rest
  | succ limit ih =>
    rw [loop.succ]
    split
    · rename_i vanishes
      rw [vanishes, Int.cast_zero, zero_sub, abs_neg] at close
      have rest := follows.abs_tail_le exact_sum nonneg later close
      rw [Int.cast_zero, zero_sub, abs_neg]
      push_cast
      linarith [limit.cast_nonneg (α := ℝ)]
    · have term := follows.head m c later close
      have rest := ih (later.trans m.le_succ) (follows.next m c later close)
        (by rwa [Nat.succ_add_eq_add_succ])
      have split : (head m c : ℝ) + sum limit (m + 1) (next m c) -
          unit * (V - ∑ k ∈ Finset.range m, f k) = (head m c - unit * f m) +
            (sum limit (m + 1) (next m c) - unit * (V - ∑ k ∈ Finset.range (m + 1), f k)) := by
        rw [Finset.sum_range_succ]
        ring
      rw [Int.cast_add, split]
      push_cast
      linarith [abs_add_le (head m c - unit * f m)
        (sum limit (m + 1) (next m c) - unit * (V - ∑ k ∈ Finset.range (m + 1), f k))]

/-- A quotient of integers is cut off by less than one. -/
theorem abs_tdiv_sub_le (a b : ℤ) : |(a.tdiv b : ℝ) - a / b| ≤ 1 := by
  have cut := (abs_sub_integerPart_lt_one ((a : ℚ) / b)).le
  rw [integerPart_div, abs_sub_comm] at cut
  exact_mod_cast cut

/-- A product that is divided by the unit keeps to the product of what its factors follow. -/
theorem abs_mul_tdiv_sub_le {a b : ℤ} {d : ℕ} {s t : ℝ} (pos : (0 : ℝ) < d) :
    |((a * b).tdiv d : ℝ) - d * (s * t)| ≤
      1 + (|a - d * s| * |(b : ℝ)| + d * |s| * |b - d * t|) / d := by
  have cut := abs_tdiv_sub_le (a * b) d
  have split : ((a * b).tdiv d : ℝ) - d * (s * t) = ((a * b).tdiv d - (a * b : ℤ) / d) +
      ((a - d * s) * b + d * s * (b - d * t)) / d := by
    push_cast
    field_simp
    ring
  have parts := abs_add_le ((a - d * s) * b) (d * s * (b - d * t))
  rw [abs_mul, abs_mul, abs_mul, abs_of_pos pos] at parts
  rw [split]
  refine (abs_add_le _ _).trans (add_le_add cut ?_)
  rw [abs_div, abs_of_pos pos]
  exact div_le_div_of_nonneg_right parts pos.le

/-! ## Sums over odd numbers -/

/-- The units that a sum can be off by. -/
def cutError (scale : ℕ) : ℝ := 8 * scale + 49

theorem cutError_nonneg (scale : ℕ) : 0 ≤ cutError scale := by
  unfold cutError
  positivity

/-- The sum over odd numbers ends when its power vanishes. -/
theorem isCutSum_oddReciprocals (unit : ℕ) (ratio : ℤ) :
    IsCutSum (fun limit m c => oddReciprocals unit ratio limit (2 * m + 1) c)
      (fun m c => c.tdiv (2 * m + 1 : ℕ)) (fun _ c => (c * ratio).tdiv unit) :=
  ⟨fun _ _ => rfl, fun _ _ _ => rfl⟩

/-- The ratio of successive powers is at most a ninth, and the computed one is two units off. -/
theorem follows_oddReciprocals {unit : ℕ} {ratio : ℤ} {x ρ : ℝ} (fine : (6 : ℝ) ≤ unit)
    (third : |x| ≤ 1 / 3) (ninth : |ρ| ≤ 1 / 9) (near : |ratio - unit * ρ| ≤ 2) :
    Follows (fun m c => c.tdiv (2 * m + 1 : ℕ)) (fun _ c => (c * ratio).tdiv unit) unit
      (fun m => x * ρ ^ m / (2 * m + 1)) (fun m => x * ρ ^ m) 0 where
  size m _ := by
    rw [abs_div]
    refine div_le_self (abs_nonneg _) ?_
    rw [abs_of_nonneg (by positivity)]
    linarith [m.cast_nonneg (α := ℝ)]
  falls m _ := by
    have count := m.cast_nonneg (α := ℝ)
    rw [abs_div, abs_div, pow_succ, ← mul_assoc, abs_mul (x * ρ ^ m)]
    rw [abs_of_nonneg (by positivity : (0 : ℝ) ≤ 2 * (m + 1 : ℕ) + 1),
      abs_of_nonneg (by positivity : (0 : ℝ) ≤ 2 * m + 1), mul_div_assoc', mul_comm |x * ρ ^ m|]
    refine div_le_div₀ (by positivity) ?_ (by positivity) (by push_cast; linarith)
    exact mul_le_mul_of_nonneg_right (ninth.trans (by norm_num)) (abs_nonneg _)
  head m c _ close := by
    have cut := abs_tdiv_sub_le c (2 * m + 1 : ℕ)
    have count := m.cast_nonneg (α := ℝ)
    have rest : |(c : ℝ) / (2 * m + 1) - unit * (x * ρ ^ m / (2 * m + 1))| ≤ 3 := by
      rw [← mul_div_assoc, ← sub_div, abs_div]
      refine (div_le_self (abs_nonneg _) ?_).trans close
      rw [abs_of_nonneg (by positivity)]
      linarith
    push_cast at cut ⊢
    linarith [abs_sub_le ((c.tdiv (2 * m + 1) : ℤ) : ℝ) (c / (2 * m + 1))
      (unit * (x * ρ ^ m / (2 * m + 1)))]
  next m c _ close := by
    have pos : (0 : ℝ) < unit := by linarith
    have power : |x * ρ ^ m| ≤ 1 / 3 := by
      rw [abs_mul, abs_pow]
      exact (mul_le_of_le_one_right (abs_nonneg _)
        (pow_le_one₀ (abs_nonneg _) (ninth.trans (by norm_num)))).trans third
    have ratio_le : |(ratio : ℝ)| ≤ unit / 9 + 2 := by
      have part := mul_le_mul_of_nonneg_left ninth pos.le
      have triangle := abs_add_le (ratio - unit * ρ) (unit * ρ)
      rw [sub_add_cancel, abs_mul (unit : ℝ) ρ, abs_of_pos pos] at triangle
      linarith
    have step := abs_mul_tdiv_sub_le (a := c) (b := ratio) (s := x * ρ ^ m) (t := ρ) pos
    have power_succ : x * ρ ^ (m + 1) = x * ρ ^ m * ρ := by ring
    rw [power_succ]
    refine step.trans ?_
    have first := mul_le_mul close ratio_le (abs_nonneg _) (by norm_num)
    have second := mul_le_mul (mul_le_mul_of_nonneg_left power pos.le) near (abs_nonneg _)
      (by positivity)
    have quotient : (|c - unit * (x * ρ ^ m)| * |(ratio : ℝ)| +
        unit * |x * ρ ^ m| * |ratio - unit * ρ|) / unit ≤ 2 := by
      rw [div_le_iff₀ pos]
      linarith
    linarith

/-- A unit of one or more digits is ten at least. -/
theorem ten_le_unit (some : 0 < scale) : (10 : ℝ) ≤ tenPow scale := by
  exact_mod_cast ten_le_tenPow some

/-- The square of a scaled number is cut off, and the number may be one unit off. -/
theorem abs_square_sub_le (some : 0 < scale) (third : |x| ≤ 1 / 3)
    (near : |z - (tenPow scale : ℝ) * x| ≤ 1) :
    |((z * z).tdiv (tenPow scale) : ℝ) - (tenPow scale : ℝ) * (x * x)| ≤ 2 := by
  have fine := ten_le_unit some
  have pos : (0 : ℝ) < tenPow scale := by linarith
  refine (abs_mul_tdiv_sub_le pos).trans ?_
  have size : |(z : ℝ)| ≤ (tenPow scale : ℝ) / 3 + 1 := by
    have part := mul_le_mul_of_nonneg_left third pos.le
    have triangle := abs_add_le (z - (tenPow scale : ℝ) * x) ((tenPow scale : ℝ) * x)
    rw [sub_add_cancel, abs_mul (tenPow scale : ℝ), abs_of_pos pos] at triangle
    linarith
  have first := mul_le_mul near size (abs_nonneg _) (by norm_num)
  have second := mul_le_mul (mul_le_mul_of_nonneg_left third pos.le) near (abs_nonneg _)
    (by positivity)
  have quotient : (|z - (tenPow scale : ℝ) * x| * |(z : ℝ)| +
      (tenPow scale : ℝ) * |x| * |z - (tenPow scale : ℝ) * x|) / tenPow scale ≤ 1 := by
    rw [div_le_iff₀ pos]
    linarith
  linarith

/-- The number of terms is enough for an argument of a third. -/
theorem abs_last_power_le {ρ : ℝ} (third : |x| ≤ 1 / 3) (ninth : |ρ| ≤ 1 / 9) :
    |(tenPow scale : ℝ) * (x * ρ ^ (0 + oddTerms scale))| ≤ 3 := by
  have unit : (tenPow scale : ℝ) = 10 ^ scale := by
    rw [tenPow_eq]
    push_cast
    rfl
  have power : |ρ| ^ (0 + oddTerms scale) ≤ (1 / 81) ^ scale := by
    calc |ρ| ^ (0 + oddTerms scale) ≤ (1 / 9) ^ (0 + oddTerms scale) :=
          pow_le_pow_left₀ (abs_nonneg _) ninth _
      _ ≤ (1 / 9) ^ (2 * scale) :=
          pow_le_pow_of_le_one (by norm_num) (by norm_num) (by unfold oddTerms; omega)
      _ = (1 / 81) ^ scale := by
          rw [pow_mul]
          norm_num
  rw [abs_mul, abs_mul, abs_pow, unit, abs_of_pos (by positivity)]
  calc (10 : ℝ) ^ scale * (|x| * |ρ| ^ (0 + oddTerms scale))
      ≤ 10 ^ scale * (1 / 3 * (1 / 81) ^ scale) := by gcongr
    _ = 1 / 3 * (10 / 81) ^ scale := by
        rw [div_pow, div_pow, one_pow]
        ring
    _ ≤ 1 / 3 * 1 :=
        mul_le_mul_of_nonneg_left (pow_le_one₀ (by norm_num) (by norm_num)) (by norm_num)
    _ ≤ 3 := by norm_num

section

variable {ρ : ℝ} {ratio : ℤ} (some : 0 < scale) (third : |x| ≤ 1 / 3) (ninth : |ρ| ≤ 1 / 9)
  (near : |z - (tenPow scale : ℝ) * x| ≤ 1) (ratio_near : |ratio - (tenPow scale : ℝ) * ρ| ≤ 2)

include some third ninth near ratio_near

/-- The sum over odd numbers is near the series that it cuts. -/
theorem oddReciprocals_near (exact_sum : HasSum (fun m : ℕ => x * ρ ^ m / (2 * m + 1)) V) :
    |oddReciprocals (tenPow scale) ratio (oddTerms scale) 1 z - (tenPow scale : ℝ) * V| ≤
      cutError scale := by
  have fine := ten_le_unit some
  have follows := follows_oddReciprocals (by linarith) third ninth ratio_near
  have close : |z - (tenPow scale : ℝ) * (x * ρ ^ 0)| ≤ 3 := by
    rw [pow_zero, mul_one]
    linarith
  have sum := (isCutSum_oddReciprocals _ ratio).near follows exact_sum (by linarith) le_rfl close
    (abs_last_power_le third ninth)
  rw [Finset.range_zero, Finset.sum_empty, sub_zero] at sum
  refine sum.trans ?_
  unfold cutError oddTerms
  push_cast
  linarith

end

/-- The inverse hyperbolic tangent. -/
theorem artanh_near (some : 0 < scale) (third : |x| ≤ 1 / 3)
    (near : |z - (tenPow scale : ℝ) * x| ≤ 1) :
    |artanh scale z - (tenPow scale : ℝ) * Real.artanh x| ≤ cutError scale := by
  have bounds := abs_le.1 third
  have exact_sum : HasSum (fun m : ℕ => x * (x * x) ^ m / (2 * m + 1)) (Real.artanh x) := by
    rw [Real.artanh_eq_half_log ⟨by linarith, by linarith⟩,
      Real.log_div (by linarith) (by linarith)]
    have terms : (fun m : ℕ => x * (x * x) ^ m / (2 * m + 1)) =
        fun m : ℕ => 1 / 2 * (2 * (1 / (2 * m + 1)) * x ^ (2 * m + 1)) := by
      funext m
      rw [pow_succ, pow_mul, ← pow_two]
      ring
    rw [terms]
    exact (Real.hasSum_log_sub_log_of_abs_lt_one (third.trans_lt (by norm_num))).mul_left (1 / 2)
  refine oddReciprocals_near some third ?_ near (abs_square_sub_le some third near) exact_sum
  rw [abs_mul]
  nlinarith [abs_nonneg x]

/-- The inverse tangent. -/
theorem arctan_near (some : 0 < scale) (third : |x| ≤ 1 / 3)
    (near : |z - (tenPow scale : ℝ) * x| ≤ 1) :
    |arctan scale z - (tenPow scale : ℝ) * Real.arctan x| ≤ cutError scale := by
  have exact_sum : HasSum (fun m : ℕ => x * (-(x * x)) ^ m / (2 * m + 1)) (Real.arctan x) := by
    have terms : (fun m : ℕ => x * (-(x * x)) ^ m / (2 * m + 1)) =
        fun m : ℕ => (-1) ^ m * x ^ (2 * m + 1) / (2 * m + 1 : ℕ) := by
      funext m
      rw [neg_pow, pow_succ, pow_mul, ← pow_two]
      push_cast
      ring
    rw [terms]
    exact Real.hasSum_arctan (third.trans_lt (by norm_num))
  have square := abs_square_sub_le some third near
  refine oddReciprocals_near some third ?_ near ?_ exact_sum
  · rw [abs_neg, abs_mul]
    nlinarith [abs_nonneg x]
  · rw [Int.cast_neg, mul_neg, neg_sub_neg, abs_sub_comm]
    exact square

/-! ## Logarithms and the ratio of a circle -/

/-- A logarithm is twice an inverse hyperbolic tangent. -/
theorem artanh_eq_log {n m : ℝ} (hn : 0 < n) (hm : 0 < m) :
    2 * Real.artanh ((n - m) / (n + m)) = Real.log (n / m) := by
  have total : 0 < n + m := by linarith
  have low : -1 ≤ (n - m) / (n + m) := by
    rw [le_div_iff₀ total]
    linarith
  have high : (n - m) / (n + m) ≤ 1 := by
    rw [div_le_one total]
    linarith
  have top : 1 + (n - m) / (n + m) = 2 * n / (n + m) := by
    field_simp
    ring
  have bottom : 1 - (n - m) / (n + m) = 2 * m / (n + m) := by
    field_simp
    ring
  rw [Real.artanh_eq_half_log ⟨low, high⟩, top, bottom, div_div_div_cancel_right₀ total.ne',
    mul_div_mul_left _ _ two_ne_zero]
  ring

/-- The argument of a fixed fraction of the unit. -/
theorem abs_part_sub_le (scale : ℕ) {k : ℕ} (some : 0 < k) :
    |((tenPow scale / k : ℕ) : ℤ) - (tenPow scale : ℝ) * (1 / k)| ≤ 1 := by
  have pos : (0 : ℝ) < k := by exact_mod_cast some
  have cut : ((tenPow scale / k : ℕ) : ℤ) = (tenPow scale : ℤ).tdiv k :=
    (Int.ofNat_tdiv _ _).symm
  have part := abs_tdiv_sub_le (tenPow scale) k
  rw [Int.cast_natCast, Int.cast_natCast] at part
  rwa [cut, mul_one_div]

/-- The inverse hyperbolic tangent of a reciprocal, in units. -/
theorem artanh_part_near (some : 0 < scale) {k : ℕ} (third : 3 ≤ k) :
    |artanh scale (tenPow scale / k : ℕ) - (tenPow scale : ℝ) * Real.artanh (1 / k)| ≤
      cutError scale := by
  refine artanh_near some ?_ (abs_part_sub_le scale (by omega))
  have count : (3 : ℝ) ≤ k := by exact_mod_cast third
  rw [abs_of_nonneg (by positivity)]
  exact one_div_le_one_div_of_le (by norm_num) count

/-- The logarithm of two, in units. -/
theorem lnTwo_near (some : 0 < scale) :
    |lnTwo scale - (tenPow scale : ℝ) * Real.log 2| ≤ 2 * cutError scale := by
  have third := artanh_part_near some (k := 3) le_rfl
  have log : 2 * Real.artanh (1 / (3 : ℕ)) = Real.log 2 := by
    convert artanh_eq_log (n := 2) (m := 1) (by norm_num) (by norm_num) using 2
    · norm_num
    · norm_num
  have twice : (lnTwo scale : ℝ) = 2 * artanh scale (tenPow scale / 3 : ℕ) := by
    rw [lnTwo]
    push_cast
    rfl
  rw [twice, ← log]
  rw [abs_le] at third ⊢
  constructor <;> linarith

/-- The logarithm of ten, in units. -/
theorem lnTen_near (some : 0 < scale) :
    |lnTen scale - (tenPow scale : ℝ) * Real.log 10| ≤ 8 * cutError scale := by
  have two := lnTwo_near some
  have ninth := artanh_part_near some (k := 9) (by decide)
  have log : 3 * Real.log 2 + 2 * Real.artanh (1 / (9 : ℕ)) = Real.log 10 := by
    have part := artanh_eq_log (n := 5) (m := 4) (by norm_num) (by norm_num)
    have fraction : (1 / (9 : ℕ) : ℝ) = (5 - 4) / (5 + 4) := by norm_num
    rw [fraction, part, ← Real.log_rpow (by norm_num), ← Real.log_mul (by norm_num) (by norm_num)]
    norm_num
  have parts : (lnTen scale : ℝ) = 3 * lnTwo scale + 2 * artanh scale (tenPow scale / 9 : ℕ) := by
    rw [lnTen]
    push_cast
    rfl
  rw [parts, ← log]
  rw [abs_le] at two ninth ⊢
  constructor <;> linarith

/-- The number pi, in units. -/
theorem pi_near (some : 0 < scale) :
    |pi scale - (tenPow scale : ℝ) * Real.pi| ≤ 20 * cutError scale := by
  have fifth := arctan_near some (x := 1 / (5 : ℕ)) (by norm_num)
    (abs_part_sub_le scale (by decide : 0 < 5))
  have last := arctan_near some (x := 1 / (239 : ℕ)) (by norm_num)
    (abs_part_sub_le scale (by decide : 0 < 239))
  have machin := Real.four_mul_arctan_inv_5_sub_arctan_inv_239
  have parts : (pi scale : ℝ) =
      16 * arctan scale (tenPow scale / 5 : ℕ) - 4 * arctan scale (tenPow scale / 239 : ℕ) := by
    rw [pi]
    push_cast
    rfl
  have ratio : Real.pi = 16 * Real.arctan (1 / (5 : ℕ)) - 4 * Real.arctan (1 / (239 : ℕ)) := by
    push_cast
    rw [one_div, one_div]
    linarith
  rw [parts, ratio]
  rw [abs_le] at fifth last ⊢
  constructor <;> linarith

/-! ## The exponential -/

/-- The sum over factorials ends when its power vanishes. -/
theorem isCutSum_reciprocalFactorials (unit : ℕ) (x : ℤ) :
    IsCutSum (fun limit m c => reciprocalFactorials unit x limit (m + 1) c) (fun _ c => c)
      (fun m c => (c * x).tdiv (unit * (m + 1 : ℕ))) :=
  ⟨fun _ _ => rfl, fun _ _ _ => rfl⟩

/-- The sum over factorials follows the exponential series of a small argument. -/
theorem follows_reciprocalFactorials {unit : ℕ} {x : ℤ} {ξ : ℝ} (pos : (0 : ℝ) < unit)
    (argument : unit * ξ = x) (small : |ξ| ≤ 5 / 4) :
    Follows (fun _ c => c) (fun m c => (c * x).tdiv (unit * (m + 1 : ℕ))) unit
      (fun m => ξ ^ m / m.factorial) (fun m => ξ ^ m / m.factorial) 1 where
  size _ _ := le_rfl
  falls m later := by
    have count : (1 : ℝ) ≤ m := by exact_mod_cast later
    have split : ξ ^ (m + 1) / (m + 1).factorial = ξ / (m + 1) * (ξ ^ m / m.factorial) := by
      rw [Nat.factorial_succ, pow_succ]
      push_cast
      field_simp
    rw [split, abs_mul, abs_div ξ, abs_of_pos (by positivity : (0 : ℝ) < m + 1)]
    refine mul_le_mul_of_nonneg_right ?_ (abs_nonneg _)
    rw [div_le_iff₀ (by positivity)]
    linarith
  head _ _ _ close := close.trans (by norm_num)
  next m c later close := by
    have count : (1 : ℝ) ≤ m := by exact_mod_cast later
    have cut := abs_tdiv_sub_le (c * x) (unit * (m + 1 : ℕ))
    have split : ((c * x : ℤ) : ℝ) / (unit * (m + 1 : ℕ) : ℤ) -
        unit * (ξ ^ (m + 1) / (m + 1).factorial) =
          (c - unit * (ξ ^ m / m.factorial)) * (ξ / (m + 1)) := by
      rw [Nat.factorial_succ, pow_succ]
      push_cast
      rw [← argument]
      field_simp
    have scaled : |(c - unit * (ξ ^ m / m.factorial)) * (ξ / (m + 1))| ≤ 3 * (5 / 8) := by
      rw [abs_mul, abs_div ξ, abs_of_pos (by positivity : (0 : ℝ) < m + 1)]
      refine mul_le_mul close ?_ (by positivity) (by norm_num)
      rw [div_le_iff₀ (by positivity)]
      linarith
    have triangle := abs_sub_le (((c * x).tdiv (unit * (m + 1 : ℕ)) : ℤ) : ℝ)
      ((c * x : ℤ) / (unit * (m + 1 : ℕ) : ℤ)) (unit * (ξ ^ (m + 1) / (m + 1).factorial))
    rw [split] at triangle
    linarith

/-- The number of terms is enough for an argument of five quarters. -/
theorem abs_last_term_le {ξ : ℝ} (small : |ξ| ≤ 5 / 4) :
    |(tenPow scale : ℝ) * (ξ ^ (1 + (2 * scale + 9)) / (1 + (2 * scale + 9)).factorial)| ≤ 3 := by
  have unit : (tenPow scale : ℝ) = 10 ^ scale := by
    rw [tenPow_eq]
    push_cast
    rfl
  have index : 1 + (2 * scale + 9) = 10 + 2 * scale := by omega
  have long : ((10 : ℕ).factorial : ℝ) * 11 ^ (2 * scale) ≤ (10 + 2 * scale).factorial := by
    exact_mod_cast Nat.factorial_mul_pow_le_factorial (m := 10) (n := 2 * scale)
  have power : |ξ| ^ (10 + 2 * scale) ≤ 10 * (25 / 16) ^ scale := by
    calc |ξ| ^ (10 + 2 * scale) ≤ (5 / 4) ^ (10 + 2 * scale) :=
          pow_le_pow_left₀ (abs_nonneg _) small _
      _ = (5 / 4) ^ 10 * (25 / 16) ^ scale := by
          rw [pow_add, pow_mul]
          norm_num
      _ ≤ 10 * (25 / 16) ^ scale := mul_le_mul_of_nonneg_right (by norm_num) (by positivity)
  have factorial_pos : (0 : ℝ) < (10 + 2 * scale).factorial := by positivity
  rw [index, abs_mul, abs_div, abs_pow, unit, abs_of_pos (by positivity), abs_of_pos factorial_pos,
    ← mul_div_assoc, div_le_iff₀ factorial_pos]
  have bases : (125 / 8 : ℝ) ^ scale ≤ 121 ^ scale := pow_le_pow_left₀ (by norm_num) (by norm_num) _
  have ten : ((10 : ℕ).factorial : ℝ) = 3628800 := by norm_num
  rw [ten, pow_mul] at long
  norm_num at long
  calc (10 : ℝ) ^ scale * |ξ| ^ (10 + 2 * scale) ≤ 10 ^ scale * (10 * (25 / 16) ^ scale) := by gcongr
    _ = 10 * (125 / 8) ^ scale := by
        rw [mul_left_comm, ← mul_pow]
        norm_num
    _ ≤ 3 * (10 + 2 * scale).factorial := by
        have some := pow_pos (by norm_num : (0 : ℝ) < 121) scale
        linarith

/-- The exponential of an argument of up to five quarters. -/
theorem exp_near (some : 0 < scale) {x : ℤ} {ξ : ℝ} (argument : (tenPow scale : ℝ) * ξ = x)
    (small : |ξ| ≤ 5 / 4) :
    |exp scale x - (tenPow scale : ℝ) * Real.exp ξ| ≤ cutError scale := by
  have fine := ten_le_unit some
  have exact_sum : HasSum (fun m : ℕ => ξ ^ m / m.factorial) (Real.exp ξ) := by
    rw [Real.exp_eq_exp_ℝ]
    exact NormedSpace.expSeries_div_hasSum_exp ξ
  have close : |x - (tenPow scale : ℝ) * (ξ ^ 1 / (1 : ℕ).factorial)| ≤ 3 := by
    rw [pow_one, Nat.factorial_one, Nat.cast_one, div_one, argument, sub_self, abs_zero]
    norm_num
  have sum := (isCutSum_reciprocalFactorials _ x).near
    (follows_reciprocalFactorials (by linarith) argument small) exact_sum (by linarith) le_rfl close
    (abs_last_term_le small)
  have front : (exp scale x : ℝ) - (tenPow scale : ℝ) * Real.exp ξ =
      reciprocalFactorials (tenPow scale) x (2 * scale + 9) (1 + 1) x -
        (tenPow scale : ℝ) * (Real.exp ξ - ∑ k ∈ Finset.range 1, ξ ^ k / k.factorial) := by
    rw [exp_eq, Finset.sum_range_one, pow_zero, Nat.factorial_zero]
    push_cast
    ring
  rw [front]
  refine sum.trans ?_
  unfold cutError
  push_cast
  linarith

end Calculator.Series
