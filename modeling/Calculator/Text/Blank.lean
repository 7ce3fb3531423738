/-!
# Blank characters

The characters with the Unicode property `White_Space`, and the two things that
the calculator does with them: it trims them off the ends of a line, and it splits
a line into words at them.
-/

namespace Calculator.Text

/-- The character has the property `White_Space`. -/
def isBlank (c : Char) : Bool :=
  let n := c.toNat
  (9 ≤ n && n ≤ 13) || n == 32 || n == 0x85 || n == 0xA0 || n == 0x1680 ||
    (0x2000 ≤ n && n ≤ 0x200A) || n == 0x2028 || n == 0x2029 || n == 0x202F || n == 0x205F ||
    n == 0x3000

/-- The characters without the blanks at the start. -/
def trimStart (cs : List Char) : List Char := cs.dropWhile isBlank

/-- The characters without the blanks at the end. -/
def trimEnd (cs : List Char) : List Char := (cs.reverse.dropWhile isBlank).reverse

/-- The characters without the blanks at both ends. -/
def trim (cs : List Char) : List Char := trimEnd (trimStart cs)

/-- Adds a character in front of the words that follow it: a blank ends a word, any other character
joins the word right after it. -/
def addToWords (c : Char) (words : List (List Char)) : List (List Char) :=
  if isBlank c then [] :: words
  else match words with
    | [] => [[c]]
    | word :: rest => (c :: word) :: rest

/-- The longest stretches of characters that are not blank. -/
def words (cs : List Char) : List (List Char) :=
  (cs.foldr addToWords []).filter (!·.isEmpty)

theorem isBlank_eq_false_of_isDigit {c : Char} (h : c.isDigit) : isBlank c = false := by
  simp only [Char.isDigit, Bool.and_eq_true, decide_eq_true_eq, UInt32.le_iff_toNat_le] at h
  have low : 48 ≤ c.toNat := h.1
  have high : c.toNat ≤ 57 := h.2
  simp only [isBlank, Bool.or_eq_false_iff, Bool.and_eq_false_iff, decide_eq_false_iff_not,
    beq_eq_false_iff_ne]
  omega

end Calculator.Text
