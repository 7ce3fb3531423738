import Calculator.Text.Blank
import Calculator.Text.Lowercase

/-!
# Letter case

Two texts that differ only in the case of ASCII letters are the same text once their capitals are
made small. What tells a capital from its small letter nowhere among the twenty-six of them does not
see the case of a letter at all (`apply_toLower`): the classes of characters do not, and neither
does the lower-case form of a text, though the form of a sigma depends on the letters around it.
-/

namespace Calculator.Text

/-! ## Characters -/

/-- The capital letters of ASCII. -/
def capitals : List Char := (List.range' 65 26).map Char.ofNat

/-- The letters of ASCII. -/
def letters : List Char := capitals ++ capitals.map Char.toLower

/-- The capitals of ASCII lie in one range. -/
theorem toNat_of_isUpper {c : Char} (capital : c.isUpper) : 65 ≤ c.toNat ∧ c.toNat ≤ 90 := by
  have bounds : c.val ≥ 65 ∧ c.val ≤ 90 := of_decide_eq_true capital
  exact ⟨UInt32.le_iff_toNat_le.1 bounds.1, UInt32.le_iff_toNat_le.1 bounds.2⟩

/-- There are no others. -/
theorem mem_capitals {c : Char} (capital : c.isUpper) : c ∈ capitals := by
  have range := toNat_of_isUpper capital
  apply List.mem_map.2
  exact ⟨c.toNat, List.mem_range'_1.2 (by omega), Char.ofNat_toNat c⟩

/-- Other characters are their own small letters. -/
theorem toLower_eq_self {c : Char} (other : ¬c.isUpper) : c.toLower = c := by
  unfold Char.toLower
  rw [dif_neg]
  exact fun bounds => other (decide_eq_true bounds)

/-- What is the same for every capital and its small letter does not depend on the case. -/
theorem apply_toLower {β : Type} (f : Char → β)
    (each : capitals.map (fun c => f c.toLower) = capitals.map f) (c : Char) :
    f c.toLower = f c := by
  by_cases capital : c.isUpper
  · exact List.map_inj_left.1 each c (mem_capitals capital)
  · rw [toLower_eq_self capital]

/-- Small letters are their own. -/
theorem toLower_toLower : ∀ c : Char, c.toLower.toLower = c.toLower :=
  apply_toLower Char.toLower (by decide)

/-- A character that is no letter is the small form of itself only. -/
theorem toLower_eq_iff {d : Char} (plain : d ∉ letters) {c : Char} : c.toLower = d ↔ c = d := by
  by_cases capital : c.isUpper
  · have mem : c ∈ capitals := mem_capitals capital
    have lower_ne : c.toLower ≠ d := by
      rintro rfl
      exact plain (List.mem_append_right _ (List.mem_map_of_mem mem))
    have ne : c ≠ d := by
      rintro rfl
      exact plain (List.mem_append_left _ mem)
    exact iff_of_false lower_ne ne
  · rw [toLower_eq_self capital]

/-- No letter is blank. -/
theorem isBlank_toLower : ∀ c : Char, isBlank c.toLower = isBlank c :=
  apply_toLower isBlank (by decide)

theorem toLower_of_isBlank {c : Char} (blank : isBlank c = true) : c.toLower = c := by
  apply toLower_eq_self
  intro capital
  have range := toNat_of_isUpper capital
  simp only [isBlank, Bool.or_eq_true, Bool.and_eq_true, decide_eq_true_eq, beq_iff_eq] at blank
  omega

/-- No letter is a digit. -/
theorem isDigit_toLower : ∀ c : Char, c.toLower.isDigit = c.isDigit :=
  apply_toLower Char.isDigit (by decide)

/-! ## Rows of characters -/

/-- The characters in small letters. -/
abbrev small (cs : List Char) : List Char := cs.map Char.toLower

theorem small_cons (c : Char) (cs : List Char) : small (c :: cs) = c.toLower :: small cs := rfl

/-- A word without letters stands in front of the small text where it does in the text. -/
theorem small_eq_append {word cs ds : List Char} (plain : word.all (· ∉ letters)) :
    small cs = word ++ ds ↔ ∃ rest, cs = word ++ rest ∧ small rest = ds := by
  induction word generalizing cs with
  | nil => simp
  | cons d word ih =>
    rw [List.all_cons, Bool.and_eq_true, decide_eq_true_eq] at plain
    have first {c : Char} : c.toLower = d ↔ c = d := toLower_eq_iff plain.1
    have others {cs : List Char} := @ih cs plain.2
    cases cs with
    | nil => simp
    | cons c cs => simp only [List.map_cons, List.cons_append, List.cons.injEq, first, others]; grind

section

variable {p : Char → Bool}

/-- A class of characters that is blind to case cuts off the same part. -/
theorem takeWhile_small (blind : ∀ c : Char, p c.toLower = p c) (cs : List Char) :
    (small cs).takeWhile p = small (cs.takeWhile p) := by
  have same : p ∘ Char.toLower = p := funext blind
  rw [List.takeWhile_map, same]

/-- It leaves the same part too. -/
theorem dropWhile_small (blind : ∀ c : Char, p c.toLower = p c) (cs : List Char) :
    (small cs).dropWhile p = small (cs.dropWhile p) := by
  have same : p ∘ Char.toLower = p := funext blind
  rw [List.dropWhile_map, same]

/-- And it tells the same of the first character. -/
theorem any_head?_small (blind : ∀ c : Char, p c.toLower = p c) (cs : List Char) :
    (small cs).head?.any p = cs.head?.any p := by
  cases cs with
  | nil => rfl
  | cons c cs => exact blind c

end

theorem trimStart_small (cs : List Char) : trimStart (small cs) = small (trimStart cs) :=
  dropWhile_small isBlank_toLower cs

theorem trim_small (cs : List Char) : trim (small cs) = small (trim cs) := by
  rw [trim, trimEnd, trimStart_small, ← List.map_reverse, dropWhile_small isBlank_toLower,
    ← List.map_reverse, trim, trimEnd]

/-! ## Lower case -/

/-- Ranges that no ASCII letter lies in do not see the case of a letter. -/
theorem inRanges_toLower {ranges : Array (Nat × Nat)}
    (apart : ∀ range ∈ ranges.toList,
      range.2 < 65 ∨ (90 < range.1 ∧ range.2 < 97) ∨ 122 < range.1) (c : Char) :
    inRanges ranges c.toLower.toNat = inRanges ranges c.toNat := by
  have outside {n : Nat} (letter : (65 ≤ n ∧ n ≤ 90) ∨ (97 ≤ n ∧ n ≤ 122)) :
      inRanges ranges n = false := by
    rw [inRanges, ← Array.any_toList, List.any_eq_false]
    intro range mem
    have := apart range mem
    simp only [Bool.and_eq_true, decide_eq_true_eq]
    omega
  by_cases capital : c.isUpper
  · have range : 65 ≤ c.toNat ∧ c.toNat ≤ 90 := toNat_of_isUpper capital
    have shift : capitals.all fun c => c.toLower.toNat = c.toNat + 32 := by decide
    have small := of_decide_eq_true (List.all_eq_true.1 shift c (mem_capitals capital))
    rw [outside (.inl range), outside (.inr (by omega))]
  · rw [toLower_eq_self capital]

/-- Capitals and small letters are both cased. -/
theorem reachesCased_small (cs : List Char) :
    reachesCased (small cs) = reachesCased cs := by
  let ignorable (c : Char) : Bool := inRanges caseIgnorableRanges c.toNat
  have blind : ∀ c, ignorable c.toLower = ignorable c := inRanges_toLower (by decide +kernel)
  have cased : ∀ c : Char, inRanges casedRanges c.toLower.toNat = inRanges casedRanges c.toNat :=
    apply_toLower (fun c => inRanges casedRanges c.toNat) (by decide +kernel)
  unfold reachesCased
  rw [dropWhile_small blind]
  cases cs.dropWhile ignorable with
  | nil => rfl
  | cons c rest => exact cased c

/-- Lower case looks at the neighbours of a character, but not at their case. -/
theorem lowerAt_toLower (before after : List Char) (c : Char) :
    lowerAt (small before) c.toLower (small after) = lowerAt before c after := by
  have sigma : c.toLower = 'Σ' ↔ c = 'Σ' := toLower_eq_iff (by decide)
  have dotted : c.toLower = 'İ' ↔ c = 'İ' := toLower_eq_iff (by decide)
  have single : lowerChar c.toLower = lowerChar c := apply_toLower lowerChar (by decide) c
  simp only [lowerAt, lowerSigma, reachesCased_small, sigma, dotted, single]

/-- The lower-case form of a text does not depend on the case of its ASCII letters. -/
theorem lowerFrom_small (before cs : List Char) :
    lowerFrom (small before) (small cs) = lowerFrom before cs := by
  induction cs generalizing before with
  | nil => rfl
  | cons c rest ih =>
    rw [small_cons, lowerFrom, lowerFrom, lowerAt_toLower, ← small_cons, ih]

/-! ## Texts -/

/-- The text with small letters in the place of the capitals of ASCII. -/
def foldCase (text : String) : String := String.ofList (small text.toList)

theorem ofList_small (cs : List Char) : String.ofList (small cs) = foldCase (String.ofList cs) := by
  rw [foldCase, String.toList_ofList]

theorem foldCase_append (s t : String) : foldCase (s ++ t) = foldCase s ++ foldCase t := by
  rw [foldCase, String.toList_append, small, List.map_append, String.ofList_append]
  rfl

/-- Texts that differ in the case of ASCII letters have one lower case. -/
theorem lowercase_foldCase (text : String) : lowercase (foldCase text) = lowercase text := by
  have chars : lowerFrom [] (small text.toList) = lowerFrom [] text.toList :=
    lowerFrom_small [] text.toList
  rw [lowercase, foldCase, String.toList_ofList, chars, lowercase]

/-- To compare without regard to case is to compare in small letters. -/
theorem equalIgnoringCase_iff {s t : String} :
    equalIgnoringCase s t = true ↔ foldCase s = foldCase t := by
  rw [equalIgnoringCase, beq_iff_eq, foldCase, foldCase, String.ofList_inj]

theorem foldCase_foldCase (text : String) : foldCase (foldCase text) = foldCase text := by
  have same : Char.toLower ∘ Char.toLower = Char.toLower := funext toLower_toLower
  rw [foldCase, foldCase, String.toList_ofList, small, List.map_map, same]

theorem equalIgnoringCase_foldCase (s t : String) :
    equalIgnoringCase s (foldCase t) = equalIgnoringCase s t := by
  rw [Bool.eq_iff_iff, equalIgnoringCase_iff, equalIgnoringCase_iff, foldCase_foldCase]

end Calculator.Text
