import Calculator.Proofs.Grammar.Meaning
import Calculator.Proofs.Text.Case
import Calculator.Proofs.Token.Names

/-!
# Tokens written out

Every token that is scanned anywhere can be written again: its spelling with a blank behind it is
scanned as that token, whatever text follows, as long as a number is not continued. In a line a
number is never continued, so the tokens of a line, with blanks between them, are a text with these
tokens.
-/

namespace Calculator

namespace Token

variable {l : Lettering} {c : Char} {cs rest : List Char} {token : Token}

/-! ## Readings of a part of a text -/

/-- In front of the text `rest` the characters are scanned as these tokens. -/
def Reads (l : Lettering) (cs : List Char) (tokens : List Token) (rest : List Char) : Prop :=
  ofChars l (cs ++ rest) = (ofChars l rest).map (tokens ++ ·)

/-- What is read in two pieces is read in one. -/
theorem Reads.append {front back : List Char} {first second : List Token}
    (h : Reads l front first (back ++ rest)) (h' : Reads l back second rest) :
    Reads l (front ++ back) (first ++ second) rest := by
  unfold Reads at *
  rw [List.append_assoc, h, h']
  cases ofChars l rest <;> simp [Except.map]

/-- A single step reads its token. -/
theorem reads_step {tokens : List Token} (step : scanStep l c (cs ++ rest) = .ok (tokens, rest)) :
    Reads l (c :: cs) tokens rest := ofChars_step step

theorem reads_nil : Reads l [] [] rest := by
  unfold Reads
  rw [List.nil_append]
  cases ofChars l rest <;> rfl

/-! ## Blanks -/

/-- A blank begins nothing but blanks. -/
theorem scanStep_of_isBlank (l : Lettering) (cs : List Char) (blank : Text.isBlank c = true) :
    scanStep l c cs = .ok ([], Text.trimStart cs) := by
  have ne (d : Char) (solid : Text.isBlank d = false) : c ≠ d := by
    rintro rfl
    rw [solid] at blank
    cases blank
  have assignment : assignment? (c :: cs) = none := by
    unfold assignment?
    split
    all_goals first | rfl | (rename_i found; cases found; exact absurd blank (by decide))
  have operator : operator? c = none := by
    unfold operator?
    split
    all_goals first | rfl | exact absurd blank (by decide)
  have name : isNameStart c = false := by
    rw [← Bool.not_eq_true]
    intro start
    rw [not_isBlank_of_isNameChar (Bool.or_eq_true_iff.2 (.inl start))] at blank
    cases blank
  have glyph : l.isGlyph c = false := by
    rw [Lettering.isGlyph, Text.toLower_of_isBlank blank, beq_eq_false_iff_ne]
    cases l.imaginaryUnit <;> exact ne _ (by decide)
  have digit : c.isDigit = false := by
    rw [← Bool.not_eq_true]
    intro digit
    rw [Text.isBlank_eq_false_of_isDigit digit] at blank
    cases blank
  have separator : l.isSeparator c = false := by
    rw [Lettering.isSeparator, beq_eq_false_iff_ne]
    cases l.separator <;> exact ne _ (by decide)
  unfold scanStep
  simp only [assignment, ne '[' (by decide), operator, startsName, name, glyph, digit, separator,
    blank, Bool.false_and, Bool.or_self, Bool.false_eq_true, if_false, if_true]

/-- Blanks in front are skipped. -/
theorem ofChars_trimStart (l : Lettering) (cs : List Char) :
    ofChars l (Text.trimStart cs) = ofChars l cs := by
  cases cs with
  | nil => rfl
  | cons c cs =>
    by_cases blank : Text.isBlank c = true
    · rw [ofChars_step (scanStep_of_isBlank l cs blank), Text.trimStart,
        List.dropWhile_cons_of_pos blank, Text.trimStart]
      cases ofChars l (cs.dropWhile Text.isBlank) <;> rfl
    · rw [trimStart_eq_self]
      rintro d ⟨⟩
      simpa using blank

/-- A blank reads as nothing. -/
theorem reads_blank (l : Lettering) (rest : List Char) : Reads l [' '] [] rest := by
  have step := ofChars_step (scanStep_blank l rest)
  rwa [ofChars_trimStart] at step

/-! ## Operators and names -/

/-- The text is at its end, or goes on after a blank. -/
def Parted (rest : List Char) : Prop := ∀ c ∈ rest.head?, c = ' '

/-- A blank keeps what follows apart. -/
theorem parted_blank (rest : List Char) : Parted (' ' :: rest) := by
  rintro c ⟨⟩
  rfl

/-- What is parted is at its end or begins with a blank. -/
theorem Parted.eq (h : Parted rest) : rest = [] ∨ ∃ cs, rest = ' ' :: cs := by
  cases rest with
  | nil => exact .inl rfl
  | cons c cs => exact .inr ⟨cs, by rw [h c rfl]⟩

/-- Nothing that goes on with a blank stands at the front of the text. -/
theorem Parted.apply_head {p : Char → Bool} (blank : p ' ' = false) (h : Parted rest) :
    ∀ c ∈ rest.head?, p c = false := fun c mem => h c mem ▸ blank

/-- An operator of one character needs a blank behind it, or it might begin an assignment. -/
theorem reads_operator (found : operator? c = some token) (parted : Parted rest) :
    Reads l [c] [token] rest := by
  refine reads_step ?_
  unfold operator? at found
  obtain rfl | ⟨cs, rfl⟩ := parted.eq
  all_goals split at found <;> cases found <;> rfl

/-- An assignment is complete whatever follows. -/
theorem reads_assign (op : AssignOp) : Reads l op.spelling [.assign op] rest := by
  cases op <;> exact reads_step rfl

/-- A letter of the imaginary unit that begins no name is the imaginary unit. -/
theorem reads_glyph (glyph : l.isGlyph c = true) (alone : continuesName rest = false) :
    Reads l [c] [.imaginaryOne] rest := by
  have letter : c ∈ ['i', 'I', 'j', 'J'] := by
    rw [Lettering.isGlyph, beq_iff_eq] at glyph
    have blind := Text.apply_toLower ['i', 'I', 'j', 'J'].contains (by decide) c
    rw [← List.contains_iff_mem, ← blind, glyph]
    cases l.imaginaryUnit <;> rfl
  have plain : assignment? (c :: rest) = none ∧ c ≠ '[' ∧ operator? c = none := by
    simp only [List.mem_cons, List.not_mem_nil, or_false] at letter
    rcases letter with rfl | rfl | rfl | rfl <;> exact ⟨rfl, by decide, rfl⟩
  obtain ⟨assignment, bracket, operator⟩ := plain
  refine reads_step ?_
  unfold scanStep
  rw [List.nil_append, assignment]
  simp only [bracket, if_false, operator, startsName, glyph, alone, Bool.not_true, Bool.or_self,
    Bool.and_false, Bool.false_eq_true, if_true]

/-- No name goes on after a blank. -/
theorem Parted.not_continuesName (h : Parted rest) : continuesName rest = false := by
  obtain rfl | ⟨cs, rfl⟩ := h.eq <;> rfl

/-- The letter of the settings is the one that is read as the imaginary one. -/
theorem isGlyph_glyph (l : Lettering) : l.isGlyph l.imaginaryUnit.glyph = true := by
  obtain ⟨separator, unit⟩ := l
  cases unit <;> rfl

/-- The letter alone is the imaginary one. -/
theorem reads_imaginaryOne (parted : Parted rest) :
    Reads l [l.imaginaryUnit.glyph] [.imaginaryOne] rest :=
  reads_glyph (isGlyph_glyph l) parted.not_continuesName

/-- A name that is none of the special words is read as one. -/
theorem reads_name {name : String} (h : l.Spells name) (parted : Parted rest) :
    Reads l (spelling l (.identifier name)) [.identifier name] rest := by
  obtain ⟨c, cs, row, starts, follow⟩ := h
  obtain rfl : name = String.ofList (c :: cs) := String.toList_injective (by simp [row])
  rw [spelling, String.toList_ofList]
  exact reads_step (scanStep_name starts follow (parted.apply_head (by decide)))

/-! ## Unit conversions -/

/-- The text is the name of a unit. -/
def IsUnit (name : String) : Prop := name.toList ≠ [] ∧ ∀ c ∈ name.toList, isUnitChar c = true

/-- A unit ends at the blank, which is skipped. -/
theorem scanUnit_again {name : String} (h : IsUnit name) {solid : List Char}
    (plain : ∀ c ∈ solid.head?, Text.isBlank c = false) :
    scanUnit (' ' :: (name.toList ++ ' ' :: solid)) = .ok (name.toList, solid) := by
  have letters : ∀ c ∈ name.toList, Text.isBlank c = false :=
    fun c mem => not_isBlank_of_isUnitChar (h.2 c mem)
  have start : Text.trimStart (' ' :: (name.toList ++ ' ' :: solid)) =
      name.toList ++ ' ' :: solid := by
    have gone : Text.trimStart (' ' :: (name.toList ++ ' ' :: solid)) =
        Text.trimStart (name.toList ++ ' ' :: solid) := rfl
    rw [gone]
    refine trimStart_eq_self fun c mem => ?_
    rw [List.head?_append_of_ne_nil _ h.1] at mem
    exact letters c (List.mem_of_mem_head? mem)
  have stop : ∀ c ∈ (' ' :: solid).head?, isUnitChar c = false := by
    rintro c ⟨⟩
    decide
  obtain ⟨taken, left⟩ := span_append h.2 stop
  have gone : Text.trimStart (' ' :: solid) = Text.trimStart solid := rfl
  simp only [scanUnit, start, taken, left, gone, trimStart_eq_self plain, List.isEmpty_iff, h.1,
    if_false]

/-- A conversion with blanks between its parts. -/
theorem reads_units {source target : String} (hs : IsUnit source) (ht : IsUnit target) :
    Reads l ('[' :: ' ' :: (source.toList ++ ' ' :: '-' :: '>' :: ' ' ::
        (target.toList ++ [' ', ']'])))
      [.openSquare, .unit source, .arrow, .unit target, .closeSquare] rest := by
  refine reads_step ?_
  have first := @scanUnit_again _ hs ('-' :: '>' :: ' ' ::
    (target.toList ++ ' ' :: ']' :: rest)) (by rintro c ⟨⟩; decide)
  have second := @scanUnit_again _ ht (']' :: rest) (by rintro c ⟨⟩; decide)
  have bracket : assignment? ('[' :: ' ' :: (source.toList ++ ' ' :: '-' :: '>' :: ' ' ::
    (target.toList ++ ' ' :: ']' :: rest))) = none := rfl
  simp only [List.cons_append, List.append_assoc, List.nil_append] at *
  unfold scanStep
  simp only [bracket, if_true, scanConversion, first, bind, Except.bind, second,
    String.ofList_toList]
  rfl

/-! ## Numbers -/

/-- A mantissa is scanned again as it was scanned. -/
theorem scanMantissa_again {mantissa left : List Char}
    (h : scanMantissa l cs = .ok (mantissa, left)) (digit : ∀ c ∈ rest.head?, c.isDigit = false)
    (separator : ∀ c ∈ rest.head?, l.isSeparator c = false) :
    scanMantissa l (mantissa ++ rest) = .ok (mantissa, rest) := by
  have digits (cs : List Char) : ∀ c ∈ cs.takeWhile Char.isDigit, c.isDigit = true :=
    fun c mem => List.all_eq_true.1 List.all_takeWhile c mem
  unfold scanMantissa at h
  split at h
  · cases h
    exact scanMantissa_whole (digits cs) digit separator
  · rename_i d after found
    split at h
    · cases h
      exact scanMantissa_whole (digits cs) digit separator
    · rename_i mark
      dsimp only at h
      split at h
      · cases h
      · rename_i sound
        cases h
        obtain rfl : d = l.separator.glyph := by
          rw [Bool.not_eq_true, Bool.not_eq_false'] at mark
          exact eq_of_beq mark
        have some : cs.takeWhile Char.isDigit ≠ [] ∨ after.takeWhile Char.isDigit ≠ [] := by
          by_contra none
          obtain ⟨whole, fraction⟩ := not_or.1 none
          rw [not_not.1 whole, not_not.1 fraction] at sound
          simp at sound
        rw [List.append_assoc, List.cons_append]
        exact scanMantissa_point (digits cs) (digits after) some digit separator

/-- At most one sign is taken off. -/
theorem splitSign_fst (cs : List Char) :
    (splitSign cs).1 = [] ∨ (splitSign cs).1 = ['+'] ∨ (splitSign cs).1 = ['-'] := by
  unfold splitSign
  split <;> simp

/-- An exponent is scanned again as it was scanned, without its blanks. -/
theorem scanExponent_again {mantissa exponent left : List Char}
    (h : scanExponent mantissa cs = .ok (exponent, left)) (other : List Char)
    (digit : ∀ c ∈ rest.head?, c.isDigit = false)
    (none : exponent = [] → startsExponent rest = false) :
    scanExponent other (exponent ++ rest) = .ok (exponent, rest) := by
  unfold scanExponent at h
  split at h
  · cases h
    exact scanExponent_none other (none rfl)
  · rename_i e after found
    split at h
    · rename_i starts
      dsimp only at h
      split at h
      · cases h
      · rename_i some
        cases h
        rw [Bool.and_eq_true] at starts
        rw [List.cons_append, List.append_assoc]
        refine scanExponent_parts other starts.1 (splitSign_fst _) ?_ ?_ digit
        · exact fun c mem => List.all_eq_true.1 List.all_takeWhile c mem
        · simpa [List.isEmpty_iff] using some
    · cases h
      exact scanExponent_none other (none rfl)

/-- A digit or a separator begins a number. -/
theorem scanStep_number (starts : (c.isDigit || l.isSeparator c) = true) (cs : List Char) :
    scanStep l c cs = scanNumber l (c :: cs) := by
  rcases Bool.or_eq_true_iff.1 starts with digit | mark
  · exact scanStep_digit digit cs
  · obtain rfl : c = l.separator.glyph := eq_of_beq mark
    clear mark starts
    obtain ⟨separator, unit⟩ := l
    cases separator <;> cases unit <;> rfl

/-- The text is that of a number that is scanned somewhere. -/
def IsNumber (l : Lettering) (text : String) : Prop :=
  ∃ c cs mantissa exponent left behind, (c.isDigit || l.isSeparator c) = true ∧
    scanMantissa l (c :: cs) = .ok (mantissa, left) ∧
    scanExponent mantissa left = .ok (exponent, behind) ∧ text.toList = mantissa ++ exponent

/-- A mantissa begins with its first character. -/
theorem scanMantissa_head {mantissa left : List Char}
    (starts : (c.isDigit || l.isSeparator c) = true)
    (h : scanMantissa l (c :: cs) = .ok (mantissa, left)) : ∃ tail, mantissa = c :: tail := by
  unfold scanMantissa at h
  by_cases digit : c.isDigit = true
  · rw [List.takeWhile_cons_of_pos digit] at h
    split at h
    · cases h
      exact ⟨_, rfl⟩
    · split at h
      · cases h
        exact ⟨_, rfl⟩
      · dsimp only at h
        split at h
        · cases h
        · cases h
          exact ⟨_, rfl⟩
  · have separator : l.isSeparator c = true := by simpa [digit] using starts
    rw [List.takeWhile_cons_of_neg digit, List.dropWhile_cons_of_neg digit] at h
    simp only [separator, Bool.not_true, Bool.false_eq_true, if_false] at h
    split at h
    · cases h
    · cases h
      exact ⟨_, rfl⟩

/-- An exponent begins with its mark. -/
theorem scanExponent_head {mantissa exponent left : List Char}
    (h : scanExponent mantissa cs = .ok (exponent, left)) :
    ∀ c ∈ exponent.head?, isExponentMark c = true := by
  unfold scanExponent at h
  split at h
  · cases h
    simp
  · split at h
    · rename_i starts
      dsimp only at h
      split at h
      · cases h
      · cases h
        rintro c ⟨⟩
        exact (Bool.and_eq_true _ _ ▸ starts : _ ∧ _).1
    · cases h
      simp

/-- The characters that may stand behind an operand of an expression. -/
def closers : List Char := ['+', '-', '*', '/', '^', ')', ';', '[']

/-- The text may stand behind an operand of an expression. -/
def Closes (rest : List Char) : Prop := ∀ c ∈ rest.head?, c ∈ closers

/-- What may follow an argument is neither blank nor the mark of an exponent. -/
theorem closers_plain (mem : c ∈ closers) :
    Text.isBlank c = false ∧ isExponentMark c = false := by
  have each : (closers.all fun c => !Text.isBlank c && !isExponentMark c) = true := by decide
  simpa using List.all_eq_true.1 each c mem

/-- There is no blank to skip before a closer. -/
theorem Closes.trimStart_eq (h : Closes rest) : Text.trimStart rest = rest :=
  trimStart_eq_self fun c mem => (closers_plain (h c mem)).1

/-- The marker behind a number is what is read there without the number. -/
theorem ofChars_scanMarker (l : Lettering) (cs : List Char) :
    (ofChars l (scanMarker l cs).2).map ((scanMarker l cs).1 ++ ·) = ofChars l cs := by
  unfold scanMarker
  split
  · exact reads_nil.symm
  · rename_i c rest found
    split
    · rename_i marks
      obtain ⟨glyph, alone⟩ := Bool.and_eq_true_iff.1 marks
      have other : continuesName rest = false := by
        cases rest with
        | nil => rfl
        | cons d rest =>
          rw [continuesName, Bool.and_eq_false_iff]
          exact .inr (by simpa using alone)
      rw [← ofChars_trimStart l cs, found]
      exact (reads_glyph glyph other).symm
    · exact reads_nil.symm

/-- A number is read again as it was scanned, without its blanks, if no exponent follows the
mantissa of one that has none. -/
theorem reads_numeral {mantissa exponent left behind : List Char}
    (starts : (c.isDigit || l.isSeparator c) = true)
    (first : scanMantissa l (c :: cs) = .ok (mantissa, left))
    (second : scanExponent mantissa left = .ok (exponent, behind)) (parted : Parted rest)
    (none : exponent = [] → startsExponent rest = false) :
    Reads l (mantissa ++ exponent) [.number (String.ofList (mantissa ++ exponent))] rest := by
  have blank : l.isSeparator ' ' = false := by
    obtain ⟨separator, unit⟩ := l
    cases separator <;> rfl
  have letter {d : Char} (letter : isExponentMark d = true) :
      d.isDigit = false ∧ l.isSeparator d = false := by
    rw [isExponentMark, Bool.or_eq_true, beq_iff_eq, beq_iff_eq] at letter
    obtain ⟨separator, unit⟩ := l
    rcases letter with rfl | rfl <;> cases separator <;> exact ⟨rfl, rfl⟩
  have stop : ∀ d ∈ (exponent ++ rest).head?, d.isDigit = false ∧ l.isSeparator d = false := by
    intro d mem
    cases exponent with
    | nil => exact ⟨parted.apply_head (by decide) d mem, parted.apply_head blank d mem⟩
    | cons e exponent =>
      cases mem
      exact letter (scanExponent_head second _ rfl)
  have whole := scanMantissa_again first (fun d mem => (stop d mem).1) fun d mem => (stop d mem).2
  have power := scanExponent_again second mantissa (parted.apply_head (by decide)) none
  have scanned : scanNumber l (mantissa ++ (exponent ++ rest)) =
      .ok (.number (String.ofList (mantissa ++ exponent)) :: (scanMarker l rest).1,
        (scanMarker l rest).2) := by
    unfold scanNumber
    simp only [whole, power, bind, Except.bind]
    rfl
  obtain ⟨tail, rfl⟩ := scanMantissa_head starts first
  rw [List.cons_append, ← scanStep_number starts] at scanned
  rw [Reads, List.append_assoc, List.cons_append, ofChars_step scanned, ← ofChars_scanMarker l rest]
  cases ofChars l (scanMarker l rest).2 <;> rfl

/-- A number is read back if what follows it does not look like an exponent. -/
theorem reads_number {text : String} (h : IsNumber l text)
    (mark : ∀ c ∈ (Text.trimStart rest).head?, isExponentMark c = false) :
    Reads l (spelling l (.number text)) [.number text] (' ' :: rest) := by
  obtain ⟨c, cs, mantissa, exponent, left, behind, starts, first, second, spelled⟩ := h
  have none : startsExponent (' ' :: rest) = false := startsExponent_eq_false mark
  have read := reads_numeral starts first second (parted_blank rest) fun _ => none
  rwa [← spelled, String.ofList_toList] at read

/-- Behind a closer there is no exponent. -/
theorem Closes.mark (h : Closes rest) :
    ∀ c ∈ (Text.trimStart rest).head?, isExponentMark c = false := by
  rw [h.trimStart_eq]
  exact fun c mem => (closers_plain (h c mem)).2

/-- A number and the letter are read as two tokens again. -/
theorem reads_imaginary {text : String} (h : IsNumber l text) :
    Reads l (text.toList ++ [' ', l.imaginaryUnit.glyph]) [.number text, .imaginaryOne]
      (' ' :: rest) := by
  have mark : ∀ c ∈ (Text.trimStart (l.imaginaryUnit.glyph :: ' ' :: rest)).head?,
      isExponentMark c = false := by
    cases l.imaginaryUnit <;> (rintro c ⟨⟩; decide)
  have unit := (reads_blank l (l.imaginaryUnit.glyph :: ' ' :: rest)).append
    (reads_imaginaryOne (parted_blank rest))
  exact (reads_number h mark).append unit

/-! ## Tokens of a text -/

/-- The token is spelled like one that is scanned. -/
def IsWritable (l : Lettering) : Token → Prop
  | .number text => IsNumber l text
  | .identifier name => l.Spells name
  | .unit name => IsUnit name
  | _ => True

/-- What is scanned as a unit is one. -/
theorem isUnit_of_scanUnit {name left : List Char} (h : scanUnit cs = .ok (name, left)) :
    IsUnit (String.ofList name) := by
  simp only [scanUnit] at h
  split at h
  · cases h
  · rename_i some
    cases h
    rw [IsUnit, String.toList_ofList]
    exact ⟨by simpa [List.isEmpty_iff] using some,
      fun c mem => List.all_eq_true.1 List.all_takeWhile c mem⟩

/-- The tokens of a conversion can be written down again. -/
theorem isWritable_of_mem_scanConversion {tokens : List Token}
    (h : scanConversion cs = .ok (tokens, rest)) (mem : token ∈ tokens) : IsWritable l token := by
  obtain ⟨⟨source, afterSource⟩, first, h⟩ := bind_eq_ok.1 h
  dsimp only at h
  split at h
  · obtain ⟨⟨target, afterTarget⟩, second, h⟩ := bind_eq_ok.1 h
    dsimp only at h
    split at h
    · cases h
      simp only [List.mem_cons, List.not_mem_nil, or_false] at mem
      rcases mem with rfl | rfl | rfl | rfl | rfl
      · trivial
      · exact isUnit_of_scanUnit first
      · trivial
      · exact isUnit_of_scanUnit second
      · trivial
    · cases h
  · cases h

/-- The tokens of a number can be written down again. -/
theorem isWritable_of_mem_scanNumber {tokens : List Token}
    (starts : (c.isDigit || l.isSeparator c) = true)
    (h : scanNumber l (c :: cs) = .ok (tokens, rest)) (mem : token ∈ tokens) :
    IsWritable l token := by
  obtain ⟨⟨mantissa, left⟩, first, h⟩ := bind_eq_ok.1 h
  obtain ⟨⟨exponent, behind⟩, second, h⟩ := bind_eq_ok.1 h
  have marker : ∀ token ∈ (scanMarker l behind).1, IsWritable l token := by
    unfold scanMarker
    split
    · simp
    · split
      · simp [IsWritable]
      · simp
  cases h
  rcases List.mem_cons.1 mem with rfl | mem
  · exact ⟨c, cs, mantissa, exponent, left, behind, starts, first, second, String.toList_ofList⟩
  · exact marker token mem

/-- So can those of every step. -/
theorem isWritable_of_mem_scanStep {tokens : List Token}
    (h : scanStep l c cs = .ok (tokens, rest)) (mem : token ∈ tokens) : IsWritable l token := by
  have step := h
  unfold scanStep at h
  split at h
  · cases h
    obtain rfl := List.mem_singleton.1 mem
    trivial
  · split at h
    · exact isWritable_of_mem_scanConversion h mem
    · split at h
      · rename_i operator
        cases h
        obtain rfl := List.mem_singleton.1 mem
        unfold operator? at operator
        split at operator <;> cases operator <;> trivial
      · split at h
        · cases h
          obtain rfl := List.mem_singleton.1 mem
          exact spells_of_mem_scanStep step List.mem_cons_self
        · split at h
          · cases h
            obtain rfl := List.mem_singleton.1 mem
            trivial
          · split at h
            · rename_i starts
              exact isWritable_of_mem_scanNumber starts h mem
            · split at h
              · cases h
                cases mem
              · cases h

/-- And so all that a text is scanned into. -/
theorem isWritable_of_mem_scan {text : String} {tokens : List Token}
    (h : scan l text = .ok tokens) (mem : token ∈ tokens) : IsWritable l token := by
  obtain ⟨c, cs, first, rest, step, mem⟩ := exists_scanStep h mem
  exact isWritable_of_mem_scanStep step mem

/-- The tokens as they are written, with a blank behind each. -/
def written (l : Lettering) (tokens : List Token) : List Char :=
  tokens.flatMap fun token => token.spelling l ++ [' ']

theorem written_append (first second : List Token) :
    written l (first ++ second) = written l first ++ written l second := List.flatMap_append

/-- The blank behind a token belongs to its writing. -/
theorem Reads.spaced {tokens : List Token} (h : Reads l cs tokens (' ' :: rest)) :
    Reads l (cs ++ [' ']) tokens rest := by
  have both : Reads l (cs ++ [' ']) (tokens ++ []) rest := h.append (reads_blank l rest)
  rwa [List.append_nil] at both

theorem Reads.written (h : Reads l (token.spelling l) [token] (' ' :: rest)) :
    Reads l (written l [token]) [token] rest := by
  rw [Token.written, List.flatMap_singleton]
  exact h.spaced

/-- A token in front of tokens that are written out. -/
theorem Reads.before {tokens : List Token}
    (first : Reads l (token.spelling l) [token] (' ' :: (Token.written l tokens ++ rest)))
    (others : Reads l (Token.written l tokens) tokens rest) :
    Reads l (Token.written l (token :: tokens)) (token :: tokens) rest := by
  rw [← List.singleton_append, written_append]
  exact first.written.append others

/-- A written conversion is read back. -/
theorem reads_conversion {source target : String} (hs : IsUnit source) (ht : IsUnit target) :
    Reads l (Token.written l [.openSquare, .unit source, .arrow, .unit target, .closeSquare])
      [.openSquare, .unit source, .arrow, .unit target, .closeSquare] rest := by
  have spelled : Token.written l [.openSquare, .unit source, .arrow, .unit target, .closeSquare] =
      '[' :: ' ' :: (source.toList ++ ' ' :: '-' :: '>' :: ' ' :: (target.toList ++ [' ', ']'])) ++
        [' '] := by
    simp [Token.written, spelling]
  rw [spelled]
  exact (reads_units hs ht).spaced

/-- An operator in front of a text. -/
theorem reads_prefixed {tokens : List Token} (found : operator? c = some token)
    (spelled : token.spelling l = [c]) (h : Reads l (Token.written l tokens) tokens rest) :
    Reads l (Token.written l (token :: tokens)) (token :: tokens) rest := by
  refine Reads.before ?_ h
  rw [spelled]
  exact reads_operator found (parted_blank _)

/-- An operator behind an operand and in front of another text. -/
theorem reads_joined {front back : List Token} (found : operator? c = some token)
    (closing : c ∈ closers) (spelled : token.spelling l = [c])
    (first : ∀ rest, Closes rest → Reads l (Token.written l front) front rest)
    (second : Reads l (Token.written l back) back rest) :
    Reads l (Token.written l (front ++ token :: back)) (front ++ token :: back) rest := by
  have closes : Closes (Token.written l (token :: back) ++ rest) := by
    rw [Token.written, List.flatMap_cons, spelled]
    rintro d ⟨⟩
    exact closing
  rw [written_append]
  exact (first _ closes).append (reads_prefixed found spelled second)

end Token

/-! ## Lines -/

namespace Grammar

open Token (IsWritable Closes Reads written written_append reads_joined reads_prefixed)

variable {l : Lettering}

/-- A written literal is read back before a closer. -/
theorem Literal.reads_written (literal : Literal) {rest : List Char}
    (h : ∀ token ∈ literal.tokens, IsWritable l token) (closes : Closes rest) :
    Reads l (written l literal.tokens) literal.tokens rest := by
  cases literal with
  | numeral text => exact (Token.reads_number (h _ List.mem_cons_self) closes.mark).written
  | marker => exact (Token.reads_imaginaryOne (Token.parted_blank _)).written
  | imaginary text markerFirst =>
    cases markerFirst with
    | true =>
      have number := h (.number text) (by simp [Literal.tokens])
      exact (Token.reads_imaginaryOne (Token.parted_blank _)).before
        (Token.reads_number number closes.mark).written
    | false =>
      have number := h (.number text) (by simp [Literal.tokens])
      -- The step of the number takes the letter behind it, so the two are read together.
      have both : Reads l (text.toList ++ [' ', l.imaginaryUnit.glyph] ++ [' '])
        [.number text, .imaginaryOne] rest := (Token.reads_imaginary number).spaced
      simpa [written, Token.spelling, Literal.tokens] using both

mutual

/-- A phrase that is written out is scanned as its tokens. -/
theorem Derivation.reads_written {phrase : Phrase} :
    ∀ (t : Derivation phrase) (rest : List Char), (∀ token ∈ t.tokens, IsWritable l token) →
      Closes rest → Reads l (written l t.tokens) t.tokens rest
  | .ofProduct operand, rest, h, closes | .ofPower operand, rest, h, closes
  | .ofConverted operand, rest, h, closes | .ofSigned operand, rest, h, closes
  | .ofBracketed operand, rest, h, closes | .ofCall operand, rest, h, closes
  | .ofAtom operand, rest, h, closes => operand.reads_written rest h closes
  | .add left right, rest, h, closes | .sub left right, rest, h, closes
  | .mul left right, rest, h, closes | .div left right, rest, h, closes
  | .pow left right, rest, h, closes => by
    have first := fun rest => left.reads_written rest fun token mem =>
      h token (by simp [Derivation.tokens, mem])
    have second := right.reads_written rest (fun token mem =>
      h token (by simp [Derivation.tokens, mem])) closes
    exact reads_joined rfl (by decide) rfl first second
  | .convert operand source target, rest, h, closes => by
    have first := fun rest => operand.reads_written rest fun token mem =>
      h token (by simp [Derivation.tokens, mem])
    have hs := h (.unit source) (by simp [Derivation.tokens])
    have ht := h (.unit target) (by simp [Derivation.tokens])
    rw [Derivation.tokens, written_append]
    exact (first _ (by rintro c ⟨⟩; decide)).append (Token.reads_conversion hs ht)
  | .plus operand, rest, h, closes | .minus operand, rest, h, closes => by
    have first := operand.reads_written rest (fun token mem =>
      h token (by simp [Derivation.tokens, mem])) closes
    exact reads_prefixed rfl rfl first
  | .group operand, rest, h, closes => by
    have first := fun rest => operand.reads_written rest fun token mem =>
      h token (by simp [Derivation.tokens, mem])
    exact reads_prefixed rfl rfl (reads_joined rfl (by decide) rfl first Token.reads_nil)
  | .call function arguments, rest, h, closes => by
    have first := fun rest => arguments.reads_written rest fun token mem =>
      h token (by simp [Derivation.tokens, mem])
    have opened : Reads l (written l (.openBracket :: (arguments.tokens ++ [.closeBracket])))
        (.openBracket :: (arguments.tokens ++ [.closeBracket])) rest :=
      reads_prefixed rfl rfl (reads_joined rfl (by decide) rfl first Token.reads_nil)
    have name := h (.identifier function) (by simp [Derivation.tokens])
    exact (Token.reads_name name (Token.parted_blank _)).before opened
  | .name text, rest, h, closes => (Token.reads_name (h _ List.mem_cons_self) (Token.parted_blank _)).written
  | .number number, rest, h, closes => Literal.reads_written number h closes

/-- Written arguments are read back before a closer, by induction together with the expressions. -/
theorem ArgumentList.reads_written :
    ∀ (ts : ArgumentList) (rest : List Char), (∀ token ∈ ts.tokens, IsWritable l token) →
      Closes rest → Reads l (written l ts.tokens) ts.tokens rest
  | .last argument, rest, h, closes => argument.reads_written rest h closes
  | .cons argument others, rest, h, closes => by
    have first := fun rest => argument.reads_written rest fun token mem =>
      h token (by simp [ArgumentList.tokens, mem])
    have second := others.reads_written rest (fun token mem =>
      h token (by simp [ArgumentList.tokens, mem])) closes
    exact reads_joined rfl (by decide) rfl first second

end

/-- A written line is read back. -/
theorem Line.reads_written (line : Line) (h : ∀ token ∈ line.tokens, IsWritable l token) :
    Reads l (written l line.tokens) line.tokens [] := by
  induction line with
  | ofSum body => exact body.reads_written [] h (by rintro c ⟨⟩)
  | assign name op rest ih =>
    have others := ih fun token mem => h token (by simp [Line.tokens, mem])
    have target := h (.identifier name) (by simp [Line.tokens])
    have assignment : Reads l (written l (.assign op :: rest.tokens))
        (.assign op :: rest.tokens) [] :=
      Reads.before (Token.reads_assign op) others
    exact (Token.reads_name target (Token.parted_blank _)).before assignment

/-- The tokens of a line are those of the text that they are written as. -/
theorem Line.scan_written (line : Line) (h : ∀ token ∈ line.tokens, IsWritable l token) :
    Token.scan l (String.ofList (written l line.tokens)) = .ok line.tokens := by
  have reads := line.reads_written h
  rw [Reads, List.append_nil] at reads
  have none : Token.ofChars l [] = .ok [] := rfl
  rw [Token.scan_ofList, reads, none]
  simp [Except.map]

end Grammar

end Calculator
