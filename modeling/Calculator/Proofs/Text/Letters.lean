import Calculator.Text.Blank
import Calculator.Text.Lowercase
import Calculator.Token.Basic

/-!
# Letters, blanks and lower case

What the tables of characters say as a whole: no letter is a blank, and a capital outside ASCII has
no lower-case form within it, but for the Kelvin sign. So text whose lower-case form is a word of
ASCII letters without a `k` is that word, but for the case of its letters.
-/

namespace Calculator.Text

/-! ## Blanks -/

/-- The blanks outside ASCII. -/
def wideBlanks : List Nat :=
  0x85 :: 0xA0 :: 0x1680 :: 0x2028 :: 0x2029 :: 0x202F :: 0x205F :: 0x3000 :: List.range' 0x2000 11

/-- A blank outside ASCII is in the table of them. -/
theorem mem_wideBlanks {c : Char} (wide : 128 ≤ c.toNat) (blank : isBlank c = true) :
    c.toNat ∈ wideBlanks := by
  simp only [isBlank, Bool.or_eq_true, Bool.and_eq_true, decide_eq_true_eq, beq_iff_eq] at blank
  simp only [wideBlanks, List.mem_cons, List.mem_range'_1]
  omega

/-- No blank outside ASCII is in the table of letters. -/
theorem not_inRanges_of_mem_wideBlanks {n : Nat} (mem : n ∈ wideBlanks) :
    inRanges alphabeticRanges n = false := by
  -- A list is evaluated faster than an array, whose items are taken by their places.
  have each : ∀ n ∈ wideBlanks,
      alphabeticRanges.toList.any (fun range => range.1 ≤ n && n ≤ range.2) = false := by
    decide +kernel
  rw [inRanges, ← Array.any_toList]
  exact each n mem

/-- A letter is no blank. -/
theorem isBlank_eq_false_of_isAlphabetic {c : Char} (letter : isAlphabetic c) :
    isBlank c = false := by
  rw [← Bool.not_eq_true]
  intro blank
  unfold isAlphabetic at letter
  split at letter
  · delta Char.isAlpha Char.isUpper Char.isLower at letter
    simp only [Bool.or_eq_true, Bool.and_eq_true, decide_eq_true_eq, UInt32.le_iff_toNat_le,
      ge_iff_le] at letter
    simp only [isBlank, Bool.or_eq_true, Bool.and_eq_true, decide_eq_true_eq, beq_iff_eq] at blank
    have range : (65 ≤ c.toNat ∧ c.toNat ≤ 90) ∨ 97 ≤ c.toNat ∧ c.toNat ≤ 122 := letter
    omega
  · rename_i wide
    rw [not_inRanges_of_mem_wideBlanks (mem_wideBlanks (Nat.not_lt.1 wide) blank)] at letter
    cases letter

/-! ## Lower case -/

/-- No character outside ASCII is mapped into it, but for the Kelvin sign. -/
def CaseRange.leavesAscii (r : CaseRange) : Bool :=
  r.last < 128 || r.first + r.offset == 'k'.toNat && r.first == r.last ||
    128 ≤ r.first + r.offset &&
      (r.last + r.offset < 0xD800 || 0xE000 ≤ r.first + r.offset && r.last + r.offset < 0x110000)

/-- No row of the table maps into ASCII from outside, but for the Kelvin sign. -/
theorem leavesAscii_of_mem {r : CaseRange} (mem : r ∈ caseRanges) : r.leavesAscii = true := by
  have each : ∀ r ∈ caseRanges.toList, r.leavesAscii = true := by decide +kernel
  exact each r (Array.mem_toList_iff.2 mem)

theorem toNat_ofNat {n : Nat} (valid : n < 0xD800 ∨ 0xE000 ≤ n ∧ n < 0x110000) :
    (Char.ofNat n).toNat = n := by
  have h : n.isValidChar := by
    unfold Nat.isValidChar
    omega
  unfold Char.ofNat
  rw [dif_pos h]
  rfl

/-- A character whose lower-case form is in ASCII and no `k` is in ASCII itself. -/
theorem lowerChar_eq_toLower {c : Char} (small : (lowerChar c).toNat < 128)
    (other : lowerChar c ≠ 'k') : lowerChar c = c.toLower := by
  unfold lowerChar at small other ⊢
  split
  · rfl
  · rename_i wide
    exfalso
    rw [if_neg wide] at small other
    split at small
    · rename_i r found
      simp only [found] at other
      have covers := Array.find?_some found
      have leaves := leavesAscii_of_mem (Array.mem_of_find?_eq_some found)
      simp only [CaseRange.covers, Bool.and_eq_true, decide_eq_true_eq] at covers
      simp only [CaseRange.leavesAscii, Bool.or_eq_true, Bool.and_eq_true, decide_eq_true_eq,
        beq_iff_eq] at leaves
      rcases leaves with (ascii | ⟨kelvin, single⟩) | ⟨low, valid⟩
      · omega
      · have same : (c.toNat + r.offset).toNat = 'k'.toNat := by omega
        rw [same] at other
        exact other (Char.ofNat_toNat 'k')
      · rw [toNat_ofNat (by omega)] at small
        omega
    · omega

/-- Where the lower case of a character is in ASCII, it is the lower case of ASCII. -/
theorem lowerAt_eq_toLower {before after : List Char} {c : Char}
    (ascii : ∀ d ∈ lowerAt before c after, d.toNat < 128 ∧ d ≠ 'k') :
    lowerAt before c after = [c.toLower] := by
  unfold lowerAt at ascii ⊢
  split
  · rename_i sigma
    rw [if_pos sigma] at ascii
    have small := (ascii _ List.mem_cons_self).1
    unfold lowerSigma at small
    split at small <;> exact absurd small (by decide)
  · rename_i plain
    rw [if_neg plain] at ascii
    split
    · rename_i dotted
      rw [if_pos dotted] at ascii
      exact absurd (ascii '\u0307' (by simp)).1 (by decide)
    · rename_i single
      rw [if_neg single] at ascii
      have each := ascii _ List.mem_cons_self
      rw [lowerChar_eq_toLower each.1 each.2]

/-- Text whose lower-case form is in ASCII and has no `k` differs from it in ASCII letters only. -/
theorem lowerFrom_eq_map {before cs : List Char}
    (ascii : ∀ d ∈ lowerFrom before cs, d.toNat < 128 ∧ d ≠ 'k') :
    lowerFrom before cs = cs.map Char.toLower := by
  induction cs generalizing before with
  | nil => rfl
  | cons c rest ih =>
    rw [lowerFrom] at ascii ⊢
    rw [lowerAt_eq_toLower fun d mem => ascii d (List.mem_append_left _ mem),
      ih fun d mem => ascii d (List.mem_append_right _ mem), List.map_cons, List.singleton_append]

/-- A text whose lower case is a word of ASCII without a `k` is that word, but for its capitals. -/
theorem map_toLower_of_lowercase {text word : String}
    (ascii : ∀ d ∈ word.toList, d.toNat < 128 ∧ d ≠ 'k') (lower : lowercase text = word) :
    text.toList.map Char.toLower = word.toList := by
  have chars : lowerFrom [] text.toList = word.toList := by
    rw [← lower, lowercase, String.toList_ofList]
  rw [← chars] at ascii ⊢
  exact (lowerFrom_eq_map ascii).symm

end Calculator.Text
