import Mathlib.Data.Set.Function
import Calculator.Proofs.Precision.DigitList
import Calculator.Proofs.Precision.Division

/-!
# The digit-wise operations are Boolean

A logical operand is a vector of bits written with decimal digits. Filled up to the digits of the
precision, its row of digits is the row of the bits, so the digit-wise operations are those on vectors
of bits, and expressions of the same truth table have the same answer. What limits this is only the
width that a row can be filled up to.
-/

namespace Calculator

open Precision (digitOf)

/-! ## Rows of the same width -/

variable {d w : ℕ} {ds es : List ℕ}

/-- Filling up gives the width that is asked for, if the digits fit. -/
theorem length_padded (le : ds.length ≤ w) : (padded w ds).length = w := by
  rw [padded, List.length_append, List.length_replicate]
  omega

@[simp] theorem ofDigitList_append_zeros (ds : List ℕ) (k : ℕ) :
    ofDigitList (ds ++ List.replicate k 0) = ofDigitList ds := by
  rw [ofDigitList_eq, ofDigitList_eq, Nat.ofDigits_append_replicate_zero]

@[simp] theorem ofDigitList_padded (w : ℕ) (ds : List ℕ) : ofDigitList (padded w ds) = ofDigitList ds :=
  ofDigitList_append_zeros ds _

/-- Filling up adds zeros only. -/
theorem mem_padded {c : ℕ} (mem : c ∈ padded w ds) : c ∈ ds ∨ c = 0 := by
  rw [padded, List.mem_append, List.mem_replicate] at mem
  exact mem.imp_right And.right

/-- A wider row has more zeros at its end. -/
theorem padded_eq_append (short : ds.length ≤ w) (le : w ≤ d) :
    padded d ds = padded w ds ++ List.replicate (d - w) 0 := by
  rw [padded, padded, List.append_assoc, List.replicate_append_replicate]
  congr 2
  omega

/-- Filling up further does not change the combined number. -/
theorem ofDigitList_zipWith_padded {f : ℕ → ℕ → ℕ} (zeros : f 0 0 = 0) (hd : ds.length ≤ w)
    (he : es.length ≤ w) (le : w ≤ d) :
    ofDigitList (List.zipWith f (padded d ds) (padded d es)) =
      ofDigitList (List.zipWith f (padded w ds) (padded w es)) := by
  rw [padded_eq_append hd le, padded_eq_append he le, List.zipWith_append
    (by rw [length_padded hd, length_padded he]), List.zipWith_replicate, zeros, min_self,
    ofDigitList_append_zeros]

/-- A number has one row of a width. -/
theorem eq_of_ofDigitList_eq (same : ds.length = es.length) (hd : ∀ c ∈ ds, c < 10)
    (he : ∀ c ∈ es, c < 10) (equal : ofDigitList ds = ofDigitList es) : ds = es := by
  rw [ofDigitList_eq, ofDigitList_eq] at equal
  exact Nat.ofDigits_inj_of_len_eq (by decide) same hd he equal

/-- A row of digits is a number of at most as many digits. -/
theorem ofDigitList_lt (small : ∀ c ∈ ds, c < 10) : ofDigitList ds < 10 ^ ds.length := by
  rw [ofDigitList_eq]
  exact Nat.ofDigits_lt_base_pow_length (by decide) small

/-! ## Vectors of bits -/

theorem digitOf_le_one (b : Bool) : digitOf b ≤ 1 := by cases b <;> decide

@[simp] theorem digitOf_beq_one (b : Bool) : (digitOf b == 1) = b := by cases b <;> rfl

@[simp] theorem digitOf_beq_zero (b : Bool) : (digitOf b == 0) = !b := by cases b <;> rfl

/-- The digits of a vector of bits, from the last to the first. -/
def bitDigits (v : BitVec d) : List ℕ := (List.range d).map fun i => digitOf (v.getLsbD i)

variable {u v : BitVec d}

@[simp] theorem length_bitDigits (v : BitVec d) : (bitDigits v).length = d := by simp [bitDigits]

theorem le_one_of_mem_bitDigits {c : ℕ} (mem : c ∈ bitDigits v) : c ≤ 1 := by
  obtain ⟨i, -, rfl⟩ := List.mem_map.1 mem
  exact digitOf_le_one _

theorem lt_ten_of_mem_bitDigits {c : ℕ} (mem : c ∈ bitDigits v) : c < 10 :=
  (le_one_of_mem_bitDigits mem).trans_lt (by decide)

/-- A vector can be read off its digits. -/
theorem bitDigits_injective (same : bitDigits u = bitDigits v) : u = v := by
  refine BitVec.eq_of_getLsbD_eq fun i bound => ?_
  have digit := List.map_inj_left.1 same i (List.mem_range.2 bound)
  rw [← digitOf_beq_one (u.getLsbD i), digit, digitOf_beq_one]

/-- The number whose decimal digits are the bits. -/
def bitNumber (v : BitVec d) : ℕ := ofDigitList (bitDigits v)

/-- A vector as a number has no more digits than the vector has bits. -/
theorem bitNumber_lt (v : BitVec d) : bitNumber v < 10 ^ d := by
  have bound := ofDigitList_lt fun c mem => lt_ten_of_mem_bitDigits (v := v) mem
  rwa [length_bitDigits] at bound

theorem length_digitList_le {n : ℕ} (digit : 0 < d) (few : n < 10 ^ d) :
    (digitList n).length ≤ d := by
  rw [length_digitList]
  exact (digitCount_le_iff digit).2 few

/-- Filled up, the digits of the number are the bits. -/
theorem padded_digitList_bitNumber (digit : 0 < d) (v : BitVec d) :
    padded d (digitList (bitNumber v)) = bitDigits v := by
  have short := length_digitList_le digit (bitNumber_lt v)
  refine eq_of_ofDigitList_eq ?_ ?_ ?_ ?_
  · rw [length_padded short, length_bitDigits]
  · intro c mem
    rcases mem_padded mem with mem | rfl
    · exact lt_ten_of_mem_digitList mem
    · decide
  · exact fun c mem => lt_ten_of_mem_bitDigits mem
  · rw [ofDigitList_padded, ofDigitList_digitList, bitNumber]

/-- An operation on digits that are zeros and ones. -/
def digitOp (op : Bool → Bool → Bool) (x y : ℕ) : ℕ := digitOf (op (x == 1) (y == 1))

/-- The zeros that rows are filled up with give zeros. -/
theorem digitOp_zero {op : Bool → Bool → Bool} (zeros : op false false = false) :
    digitOp op 0 0 = 0 := by
  simp [digitOp, zeros, digitOf]

/-- An operation on the digits of two vectors gives the digits of the vector of its bits. -/
theorem zipWith_bitDigits {op : Bool → Bool → Bool} {t : BitVec d}
    (bits : ∀ i < d, t.getLsbD i = op (u.getLsbD i) (v.getLsbD i)) :
    List.zipWith (digitOp op) (bitDigits u) (bitDigits v) = bitDigits t := by
  rw [bitDigits, bitDigits, List.zipWith_map, List.zipWith_self, bitDigits]
  refine List.map_congr_left fun i mem => ?_
  rw [bits i (List.mem_range.1 mem), digitOp, digitOf_beq_one, digitOf_beq_one]

/-- A logical result has no more digits than the wider operand. -/
theorem ofDigitList_digitOp_lt {op : Bool → Bool → Bool} (hd : ds.length ≤ w) (he : es.length ≤ w) :
    ofDigitList (List.zipWith (digitOp op) (padded w ds) (padded w es)) < 10 ^ w := by
  have width : (List.zipWith (digitOp op) (padded w ds) (padded w es)).length = w := by
    rw [List.length_zipWith, length_padded hd, length_padded he, min_self]
  refine (ofDigitList_lt fun c mem => ?_).trans_eq (by rw [width])
  obtain ⟨i, bound, rfl⟩ := List.getElem_of_mem mem
  rw [List.getElem_zipWith]
  exact (digitOf_le_one _).trans_lt (by decide)

/-- Every row of zeros and ones is the digits of a vector. -/
theorem exists_bitDigits_eq (small : ∀ c ∈ ds, c ≤ 1) (width : ds.length = d) :
    ∃ v : BitVec d, bitDigits v = ds := by
  subst width
  refine ⟨(BitVec.ofBoolListLE (ds.map (· == 1))).cast (List.length_map _), ?_⟩
  refine List.ext_getElem (length_bitDigits _) fun i _ bound => ?_
  have digit := small _ (List.getElem_mem bound)
  simp only [bitDigits, List.getElem_map, List.getElem_range, BitVec.getLsbD_cast,
    BitVec.getLsbD_ofBoolListLE, List.getD_eq_getElem?_getD, List.getElem?_map,
    List.getElem?_eq_getElem bound, Option.map_some, Option.getD_some]
  interval_cases ds[i] <;> rfl

/-- The list of a number and its digits differ for zero only, which has one digit and none. -/
theorem mem_digits_iff_mem_digitList {n c : ℕ} (nonzero : c ≠ 0) :
    c ∈ Nat.digits 10 n ↔ c ∈ digitList n := by
  rcases eq_or_ne n 0 with rfl | some
  · simp [nonzero]
  · rw [digitList_eq some]

theorem digits_le_one_iff {n : ℕ} :
    (∀ c ∈ Nat.digits 10 n, c ≤ 1) ↔ ∀ c ∈ digitList n, c ≤ 1 := by
  refine forall_congr' fun c => ?_
  rcases eq_or_ne c 0 with rfl | nonzero
  · simp
  · rw [mem_digits_iff_mem_digitList nonzero]

/-- A vector as a number is written in zeros and ones. -/
theorem digits_bitNumber_le_one (digit : 0 < d) (v : BitVec d) :
    ∀ c ∈ Nat.digits 10 (bitNumber v), c ≤ 1 := by
  refine digits_le_one_iff.2 fun c mem => le_one_of_mem_bitDigits (v := v) ?_
  rw [← padded_digitList_bitNumber digit v]
  exact List.mem_append_left _ mem

/-! ## Logical operands -/

namespace Decimal

variable {x : Decimal}

/-- An integer of at most `d` digits that is not negative and is written with zeros and ones. -/
def IsLogical (d : ℕ) (x : Decimal) : Prop :=
  ∃ n : ℕ, x.value = n ∧ n < 10 ^ d ∧ ∀ c ∈ Nat.digits 10 n, c ≤ 1

/-- The number whose decimal digits are the bits of a vector. -/
def ofBits (v : BitVec d) : Decimal := ofInt (bitNumber v)

@[simp] theorem value_ofBits (v : BitVec d) : (ofBits v).value = bitNumber v := value_ofInt _

section

variable (digit : 0 < d)

include digit

/-- A vector is an operand of the logical operations. -/
theorem isLogical_ofBits (v : BitVec d) : (ofBits v).IsLogical d :=
  ⟨bitNumber v, value_ofBits v, bitNumber_lt v, digits_bitNumber_le_one digit v⟩

/-- There are no other operands. -/
theorem IsLogical.exists_ofBits (logical : x.IsLogical d) : ∃ v : BitVec d, ofBits v = x := by
  obtain ⟨n, whole, few, small⟩ := logical
  have bits : ∀ c ∈ padded d (digitList n), c ≤ 1 :=
    fun c mem => (mem_padded mem).elim (digits_le_one_iff.1 small c) (by omega)
  obtain ⟨v, row⟩ := exists_bitDigits_eq bits (length_padded (length_digitList_le digit few))
  refine ⟨v, value_injective ?_⟩
  rw [value_ofBits, bitNumber, row, ofDigitList_padded, ofDigitList_digitList, whole]

/-- The logical operands are the vectors of bits. -/
theorem ofBits_bijOn : Set.BijOn (ofBits (d := d)) Set.univ {x | x.IsLogical d} := by
  refine ⟨fun v _ => isLogical_ofBits digit v, fun u _ v _ same => ?_, fun x logical => ?_⟩
  · have numbers : (bitNumber u : ℚ) = bitNumber v := by
      rw [← value_ofBits, ← value_ofBits, same]
    apply bitDigits_injective
    rw [← padded_digitList_bitNumber digit u, ← padded_digitList_bitNumber digit v,
      Nat.cast_injective numbers]
  · obtain ⟨v, rfl⟩ := IsLogical.exists_ofBits digit logical
    exact ⟨v, trivial, rfl⟩

end

end Decimal

namespace Precision

variable {p : Precision} {x : Decimal}

/-! ## Operands and results -/

/-- The digits of an operand that is one. -/
theorem logicalDigits_of_value {n : ℕ} (whole : x.value = n) (few : n < 10 ^ p.digits)
    (small : ∀ c ∈ Nat.digits 10 n, c ≤ 1) : p.logicalDigits x = .ok (digitList n) := by
  have operand : p.integerOf x = .ok (n : ℤ) :=
    integerOf_of_value whole (by rw [Nat.abs_cast]; exact_mod_cast few)
  have row : (digitList n).all (· ≤ 1) = true :=
    List.all_eq_true.2 fun c mem => decide_eq_true (digits_le_one_iff.1 small c mem)
  unfold logicalDigits
  rw [operand]
  exact if_pos ⟨Int.natCast_nonneg n, row⟩

/-- What is no operand is refused. -/
theorem logicalDigits_refused (other : ¬x.IsLogical p.digits) :
    p.logicalDigits x = .error .invalidOperation := by
  unfold logicalDigits
  by_cases whole : ∃ m : ℤ, x.value = m ∧ |m| < 10 ^ p.digits
  · obtain ⟨m, value, few⟩ := whole
    rw [integerOf_of_value value few]
    refine if_neg ?_
    rintro ⟨nonneg, row⟩
    obtain ⟨n, rfl⟩ := Int.eq_ofNat_of_zero_le nonneg
    rw [Int.natAbs_natCast] at row
    rw [Nat.abs_cast] at few
    refine other ⟨n, value, by exact_mod_cast few, digits_le_one_iff.2 fun c mem => ?_⟩
    exact of_decide_eq_true (List.all_eq_true.1 row c mem)
  · rw [integerOf_refused whole]
    rfl

/-- A number of bits that a row can be filled up to is within the exponent bounds. -/
theorem check_ofInt_of_lt {n : ℕ} (few : n < 10 ^ maxWidth) : check (.ofInt n) = .ok (.ofInt n) := by
  rw [check_ofInt_eq, Nat.abs_cast]
  refine if_pos (lt_of_lt_of_le ?_ (pow_le_pow_right₀ (by decide) (by decide : maxWidth ≤ 1000000)))
  exact_mod_cast few

section

variable (digit : 0 < p.digits)

include digit

theorem logicalDigits_ofBits (v : BitVec p.digits) :
    p.logicalDigits (.ofBits v) = .ok (digitList (bitNumber v)) :=
  logicalDigits_of_value (Decimal.value_ofBits v) (bitNumber_lt v) (digits_bitNumber_le_one digit v)

/-- A result is not rounded, and it is too small to overflow. -/
theorem roundParts_bitNumber (v : BitVec p.digits) (short : bitNumber v < 10 ^ maxWidth) :
    p.roundParts (bitNumber v) 0 = .ok (.ofBits v) :=
  (roundParts_of_few digit (by rw [Int.natAbs_natCast]; exact bitNumber_lt v)).trans
    (check_ofInt_of_lt short)

variable {u v w : BitVec p.digits}

/-- An operation that keeps zeros acts on vectors bit by bit, unless an operand is too wide to be
filled up. -/
theorem logical_ofBits {op : Bool → Bool → Bool} (zeros : op false false = false)
    (bits : ∀ i < p.digits, w.getLsbD i = op (u.getLsbD i) (v.getLsbD i)) :
    p.logical op (.ofBits u) (.ofBits v) =
      if bitNumber u < 10 ^ maxWidth ∧ bitNumber v < 10 ^ maxWidth then .ok (.ofBits w)
      else .error .widthExceeded := by
  obtain ⟨width, common⟩ : ∃ width,
      max (digitList (bitNumber u)).length (digitList (bitNumber v)).length = width := ⟨_, rfl⟩
  have left : (digitList (bitNumber u)).length ≤ width := common ▸ le_max_left ..
  have right : (digitList (bitNumber v)).length ≤ width := common ▸ le_max_right ..
  have within : width ≤ p.digits := common ▸ max_le (length_digitList_le digit (bitNumber_lt u))
    (length_digitList_le digit (bitNumber_lt v))
  -- the rows are filled up to the longer of them, which is as good as to all the digits
  have number : ofDigitList (List.zipWith (digitOp op) (padded width (digitList (bitNumber u)))
      (padded width (digitList (bitNumber v)))) = bitNumber w := by
    rw [← ofDigitList_zipWith_padded (digitOp_zero zeros) left right within,
      padded_digitList_bitNumber digit, padded_digitList_bitNumber digit, zipWith_bitDigits bits,
      bitNumber]
  have narrow : width ≤ maxWidth ↔ bitNumber u < 10 ^ maxWidth ∧ bitNumber v < 10 ^ maxWidth := by
    rw [← common, max_le_iff, length_digitList, length_digitList, digitCount_le_iff (by decide),
      digitCount_le_iff (by decide)]
  unfold logical
  rw [logicalDigits_ofBits digit, logicalDigits_ofBits digit]
  dsimp only [bind, Except.bind]
  rw [common]
  by_cases fits : width ≤ maxWidth
  · have short : bitNumber w < 10 ^ maxWidth := by
      rw [← number]
      exact (ofDigitList_digitOp_lt left right).trans_le (Nat.pow_le_pow_right (by decide) fits)
    rw [if_pos (narrow.1 fits), ← roundParts_bitNumber digit w short, ← number]
    exact if_neg (not_lt.2 fits)
  · rw [if_neg (mt narrow.2 fits)]
    exact if_pos (not_le.1 fits)

/-- Inversion always fills up to the whole precision. -/
theorem invert_ofBits (u : BitVec p.digits) :
    p.invert (.ofBits u) =
      if p.digits ≤ maxWidth then .ok (.ofBits (~~~u)) else .error .widthExceeded := by
  have number : ofDigitList ((padded p.digits (digitList (bitNumber u))).map
      fun d => digitOf (d == 0)) = bitNumber (~~~u) := by
    rw [padded_digitList_bitNumber digit, bitDigits, List.map_map, bitNumber, bitDigits]
    refine congrArg ofDigitList (List.map_congr_left fun i mem => ?_)
    rw [BitVec.getLsbD_not, decide_eq_true (List.mem_range.1 mem), Bool.true_and]
    exact congrArg digitOf (digitOf_beq_zero _)
  unfold invert
  rw [logicalDigits_ofBits digit]
  by_cases fits : p.digits ≤ maxWidth
  · have short : bitNumber (~~~u) < 10 ^ maxWidth :=
      (bitNumber_lt _).trans_le (Nat.pow_le_pow_right (by decide) fits)
    rw [if_pos fits, ← roundParts_bitNumber digit _ short, ← number]
    exact if_neg (not_lt.2 fits)
  · rw [if_neg fits]
    exact if_pos (not_le.1 fits)

/-- The three operations on vectors whose rows can be filled up. -/
theorem and_ofBits (u v : BitVec p.digits) :
    p.and (.ofBits u) (.ofBits v) =
      if bitNumber u < 10 ^ maxWidth ∧ bitNumber v < 10 ^ maxWidth then .ok (.ofBits (u &&& v))
      else .error .widthExceeded :=
  logical_ofBits digit rfl fun _ _ => BitVec.getLsbD_and

theorem or_ofBits (u v : BitVec p.digits) :
    p.or (.ofBits u) (.ofBits v) =
      if bitNumber u < 10 ^ maxWidth ∧ bitNumber v < 10 ^ maxWidth then .ok (.ofBits (u ||| v))
      else .error .widthExceeded :=
  logical_ofBits digit rfl fun _ _ => BitVec.getLsbD_or

theorem xor_ofBits (u v : BitVec p.digits) :
    p.xor (.ofBits u) (.ofBits v) =
      if bitNumber u < 10 ^ maxWidth ∧ bitNumber v < 10 ^ maxWidth then .ok (.ofBits (u ^^^ v))
      else .error .widthExceeded :=
  logical_ofBits digit rfl fun _ _ => by rw [BitVec.getLsbD_xor, Bool.bne_eq_xor]

/-- One operand that is none is enough for the refusal. -/
theorem logical_refused {a b : Decimal} (op : Bool → Bool → Bool)
    (other : ¬a.IsLogical p.digits ∨ ¬b.IsLogical p.digits) :
    p.logical op a b = .error .invalidOperation := by
  unfold logical
  by_cases first : a.IsLogical p.digits
  · obtain ⟨v, rfl⟩ := first.exists_ofBits digit
    rw [logicalDigits_ofBits digit, logicalDigits_refused (other.resolve_left (not_not.2 first))]
    rfl
  · rw [logicalDigits_refused first]
    rfl

end

theorem invert_refused (other : ¬x.IsLogical p.digits) : p.invert x = .error .invalidOperation := by
  unfold invert
  rw [logicalDigits_refused other]
  rfl

end Precision

/-! ## Expressions -/

/-- An expression in the digit-wise operations. -/
inductive LogicTerm where
  | operand (i : ℕ)
  | and (a b : LogicTerm)
  | or (a b : LogicTerm)
  | xor (a b : LogicTerm)
  | invert (a : LogicTerm)

namespace LogicTerm

/-- The expression computed with the operations of a precision. -/
def evaluate (p : Precision) (operands : ℕ → Decimal) : LogicTerm → Except Condition Decimal
  | operand i => .ok (operands i)
  | and a b => do p.and (← a.evaluate p operands) (← b.evaluate p operands)
  | or a b => do p.or (← a.evaluate p operands) (← b.evaluate p operands)
  | xor a b => do p.xor (← a.evaluate p operands) (← b.evaluate p operands)
  | invert a => do p.invert (← a.evaluate p operands)

/-- The truth value of the expression. -/
def truth (t : ℕ → Bool) : LogicTerm → Bool
  | operand i => t i
  | and a b => a.truth t && b.truth t
  | or a b => a.truth t || b.truth t
  | xor a b => a.truth t ^^ b.truth t
  | invert a => !a.truth t

/-- The expression on vectors of bits. -/
def vector (bits : ℕ → BitVec d) : LogicTerm → BitVec d
  | operand i => bits i
  | and a b => a.vector bits &&& b.vector bits
  | or a b => a.vector bits ||| b.vector bits
  | xor a b => a.vector bits ^^^ b.vector bits
  | invert a => ~~~a.vector bits

/-- The bits of a term on vectors are the term on the bits. -/
theorem getLsbD_vector (bits : ℕ → BitVec d) (f : LogicTerm) {i : ℕ} (inside : i < d) :
    (f.vector bits).getLsbD i = f.truth fun j => (bits j).getLsbD i := by
  induction f with
  | operand j => rfl
  | and a b iha ihb => rw [vector, BitVec.getLsbD_and, iha, ihb, truth]
  | or a b iha ihb => rw [vector, BitVec.getLsbD_or, iha, ihb, truth]
  | xor a b iha ihb => rw [vector, BitVec.getLsbD_xor, iha, ihb, truth]
  | invert a ih => rw [vector, BitVec.getLsbD_not, decide_eq_true inside, Bool.true_and, ih, truth]

/-- One truth table makes one vector. -/
theorem vector_eq_of_truth {f g : LogicTerm} (same : ∀ t, f.truth t = g.truth t)
    (bits : ℕ → BitVec d) : f.vector bits = g.vector bits := by
  refine BitVec.eq_of_getLsbD_eq fun i inside => ?_
  rw [getLsbD_vector bits f inside, getLsbD_vector bits g inside, same]

variable {p : Precision}

/-- The answer is the vector, unless rows of so many digits cannot be filled up. -/
def Denotes (p : Precision) (r : Except Condition Decimal) (v : BitVec p.digits) : Prop :=
  r = .ok (.ofBits v) ∨ maxWidth < p.digits ∧ r = .error .widthExceeded

/-- A result that only the width can prevent. -/
theorem Denotes.of_ite {c : Prop} [Decidable c] {v : BitVec p.digits}
    (narrow : p.digits ≤ maxWidth → c) :
    Denotes p (if c then .ok (.ofBits v) else .error .widthExceeded) v := by
  by_cases fits : c
  · exact .inl (if_pos fits)
  · exact .inr ⟨not_le.1 (mt narrow fits), if_neg fits⟩

/-- Where one step is prevented by the width, so is the whole. -/
theorem Denotes.bind {r : Except Condition Decimal} {f : Decimal → Except Condition Decimal}
    {v w : BitVec p.digits} (hr : Denotes p r v) (next : Denotes p (f (.ofBits v)) w) :
    Denotes p (r >>= f) w := by
  rcases hr with rfl | ⟨wide, rfl⟩
  · exact next
  · exact .inr ⟨wide, rfl⟩

/-- What is answered is the vector. -/
theorem Denotes.eq_ofBits {x : Decimal} {v : BitVec p.digits} (h : Denotes p (.ok x) v) :
    x = .ofBits v := by
  rcases h with answer | ⟨-, failure⟩
  · exact Except.ok.inj answer
  · cases failure

/-- At a narrow precision no operand is too wide. -/
theorem bitNumber_short (v w : BitVec p.digits) (narrow : p.digits ≤ maxWidth) :
    bitNumber v < 10 ^ maxWidth ∧ bitNumber w < 10 ^ maxWidth :=
  have power := Nat.pow_le_pow_right (by decide : 0 < 10) narrow
  ⟨(bitNumber_lt v).trans_le power, (bitNumber_lt w).trans_le power⟩

/-- Terms are evaluated to their vectors, by induction over the term. -/
theorem evaluate_denotes (digit : 0 < p.digits) (bits : ℕ → BitVec p.digits) (f : LogicTerm) :
    Denotes p (f.evaluate p fun i => .ofBits (bits i)) (f.vector bits) := by
  induction f with
  | operand i => exact .inl rfl
  | and a b iha ihb =>
    refine iha.bind (ihb.bind ?_)
    rw [Precision.and_ofBits digit]
    exact .of_ite (bitNumber_short _ _)
  | or a b iha ihb =>
    refine iha.bind (ihb.bind ?_)
    rw [Precision.or_ofBits digit]
    exact .of_ite (bitNumber_short _ _)
  | xor a b iha ihb =>
    refine iha.bind (ihb.bind ?_)
    rw [Precision.xor_ofBits digit]
    exact .of_ite (bitNumber_short _ _)
  | invert a ih =>
    refine ih.bind ?_
    rw [Precision.invert_ofBits digit]
    exact .of_ite id

/-- Expressions of one truth table have the same answers, and in a precision of rows that can be
filled up they have one. -/
theorem evaluate_eq_of_truth (digit : 0 < p.digits) {operands : ℕ → Decimal}
    (logical : ∀ i, (operands i).IsLogical p.digits) {f g : LogicTerm}
    (same : ∀ t, f.truth t = g.truth t) :
    (∀ x y, f.evaluate p operands = .ok x → g.evaluate p operands = .ok y → x = y) ∧
    (p.digits ≤ maxWidth → ∃ x, f.evaluate p operands = .ok x ∧ g.evaluate p operands = .ok x) := by
  choose bits value using fun i => (logical i).exists_ofBits digit
  obtain rfl : (fun i => .ofBits (bits i)) = operands := funext value
  have left := evaluate_denotes digit bits f
  have right := evaluate_denotes digit bits g
  rw [← vector_eq_of_truth same bits] at right
  constructor
  · intro x y hx hy
    rw [hx] at left
    rw [hy] at right
    rw [left.eq_ofBits, right.eq_ofBits]
  · intro narrow
    exact ⟨_, left.resolve_right fun wide => not_lt.2 narrow wide.1,
      right.resolve_right fun wide => not_lt.2 narrow wide.1⟩

end LogicTerm

/-! ## The operations are Boolean -/

/-- Logical operands are vectors of bits, the operations on them those on vectors, and what is true of
truth values is true of them. Other operands are refused. -/
theorem Precision.logic_boolean {p : Precision} (digit : 0 < p.digits) :
    Set.BijOn (Decimal.ofBits (d := p.digits)) Set.univ {x | x.IsLogical p.digits} ∧
    (∀ a b : Decimal, ¬a.IsLogical p.digits ∨ ¬b.IsLogical p.digits →
      p.and a b = .error .invalidOperation ∧ p.or a b = .error .invalidOperation ∧
        p.xor a b = .error .invalidOperation) ∧
    (∀ a : Decimal, ¬a.IsLogical p.digits → p.invert a = .error .invalidOperation) ∧
    (∀ u v : BitVec p.digits, bitNumber u < 10 ^ maxWidth → bitNumber v < 10 ^ maxWidth →
      p.and (.ofBits u) (.ofBits v) = .ok (.ofBits (u &&& v)) ∧
      p.or (.ofBits u) (.ofBits v) = .ok (.ofBits (u ||| v)) ∧
      p.xor (.ofBits u) (.ofBits v) = .ok (.ofBits (u ^^^ v))) ∧
    (p.digits ≤ maxWidth → ∀ u : BitVec p.digits,
      p.invert (.ofBits u) = .ok (.ofBits (~~~u))) ∧
    ∀ (operands : ℕ → Decimal) (f g : LogicTerm), (∀ i, (operands i).IsLogical p.digits) →
      (∀ t, f.truth t = g.truth t) →
      (∀ x y, f.evaluate p operands = .ok x → g.evaluate p operands = .ok y → x = y) ∧
      (p.digits ≤ maxWidth →
        ∃ x, f.evaluate p operands = .ok x ∧ g.evaluate p operands = .ok x) := by
  refine ⟨Decimal.ofBits_bijOn digit, ?_, ?_, ?_, ?_, ?_⟩
  · intro a b other
    exact ⟨logical_refused digit _ other, logical_refused digit _ other,
      logical_refused digit _ other⟩
  · intro a other
    exact invert_refused other
  · intro u v hu hv
    rw [and_ofBits digit, or_ofBits digit, xor_ofBits digit]
    exact ⟨if_pos ⟨hu, hv⟩, if_pos ⟨hu, hv⟩, if_pos ⟨hu, hv⟩⟩
  · intro narrow u
    rw [invert_ofBits digit, if_pos narrow]
  · intro operands f g logical same
    exact LogicTerm.evaluate_eq_of_truth digit logical same

/-- Three digits, and an operand that has a two among them. -/
theorem Precision.logic_boolean_three :
    0 < (⟨3⟩ : Precision).digits ∧
    and ⟨3⟩ (.ofInt 101) (.ofInt 110) = .ok (.ofInt 100) ∧
    xor ⟨3⟩ (.ofInt 101) (.ofInt 110) = .ok (.ofInt 11) ∧
    invert ⟨3⟩ (.ofInt 101) = .ok (.ofInt 10) ∧
    invert ⟨3⟩ (.ofInt 102) = .error .invalidOperation := by
  have digit : 0 < (⟨3⟩ : Precision).digits := by decide
  obtain ⟨-, -, refused, combined, inverted, -⟩ := logic_boolean digit
  have narrow : (⟨3⟩ : Precision).digits ≤ maxWidth := by decide
  have short (v : BitVec 3) : bitNumber v < 10 ^ maxWidth :=
    (bitNumber_lt v).trans_le (Nat.pow_le_pow_right (by decide) narrow)
  obtain ⟨conjunction, -, difference⟩ := combined 5#3 6#3 (short _) (short _)
  refine ⟨digit, conjunction, difference, inverted narrow 5#3, refused _ ?_⟩
  rintro ⟨n, whole, -, small⟩
  rw [Decimal.value_ofInt] at whole
  obtain rfl : n = 102 := by exact_mod_cast whole.symm
  exact absurd (small 2 (by decide)) (by decide)

/-- A row of more than 65535 digits is not filled up, not even for zero. -/
theorem Precision.invert_too_wide : invert ⟨65536⟩ 0 = .error .widthExceeded := by decide

end Calculator
