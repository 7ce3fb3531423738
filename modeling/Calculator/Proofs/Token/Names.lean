import Calculator.Proofs.Numeral.Scan
import Calculator.Proofs.Text.Letters

/-!
# Names among tokens

Whatever is scanned as a name is spelled like one: a letter or an underscore, and then letters,
underscores and digits. Conversely text that is spelled like a name is one token, unless it begins
with the letter of the imaginary unit and does not go on with a letter.
-/

namespace Calculator

open Token (startsName continuesName scanStep scan ofChars)

variable {l : Lettering} {name text : String} {tokens : List Token}

/-! ## Spelling -/

/-- The text is spelled like a name, whatever the letter of the imaginary unit is. -/
def IsName (name : String) : Prop :=
  ∃ c cs, name.toList = c :: cs ∧ isNameStart c = true ∧ ∀ d ∈ cs, isNameChar d = true

/-- The text is a name where numbers are spelled like this. -/
def Lettering.Spells (l : Lettering) (name : String) : Prop :=
  ∃ c cs, name.toList = c :: cs ∧ startsName l c cs = true ∧ ∀ d ∈ cs, isNameChar d = true

/-- The text begins with the letter of the imaginary unit, and a digit follows. -/
def Lettering.beginsImaginary (l : Lettering) (name : String) : Bool :=
  match name.toList with
  | c :: d :: _ => l.isGlyph c && d.isDigit
  | _ => false

/-- Only the letter of the imaginary unit decides whether a text begins like an imaginary number. -/
theorem Lettering.beginsImaginary_congr {other : Lettering}
    (same : l.imaginaryUnit = other.imaginaryUnit) :
    l.beginsImaginary name = other.beginsImaginary name := by
  simp only [beginsImaginary, isGlyph, same]

/-- What is a name in one lettering is spelled like a name. -/
theorem Lettering.Spells.isName (h : l.Spells name) : IsName name := by
  obtain ⟨c, cs, row, starts, follow⟩ := h
  exact ⟨c, cs, row, (Bool.and_eq_true _ _ ▸ starts : _ ∧ _).1, follow⟩

/-- Of the names longer than a letter, those that begin with the imaginary unit and a digit are
not read as names. -/
theorem IsName.spells_iff (h : IsName name) (long : ∀ c, name.toList = [c] → l.isGlyph c = false) :
    l.Spells name ↔ l.beginsImaginary name = false := by
  obtain ⟨c, cs, row, start, follow⟩ := h
  have shape : l.Spells name ↔ startsName l c cs = true := by
    constructor
    · rintro ⟨c', cs', row', starts, -⟩
      cases row.symm.trans row'
      exact starts
    · exact fun starts => ⟨c, cs, row, starts, follow⟩
  rw [shape, startsName, start, Bool.true_and, Lettering.beginsImaginary, row]
  cases cs with
  | nil => simp [long c row]
  | cons d rest =>
    have letter : isNameChar d = true := follow d List.mem_cons_self
    simp only [continuesName, letter]
    cases l.isGlyph c <;> cases d.isDigit <;> simp

/-- No character of a name is a blank. -/
theorem not_isBlank_of_isNameChar {c : Char} (h : isNameChar c = true) :
    Text.isBlank c = false := by
  simp only [isNameChar, isNameStart, Bool.or_eq_true, beq_iff_eq] at h
  rcases h with (rfl | letter) | digit
  · decide
  · exact Text.isBlank_eq_false_of_isAlphabetic letter
  · exact Text.isBlank_eq_false_of_isDigit digit

/-- No character of a unit is a blank. -/
theorem not_isBlank_of_isUnitChar {c : Char} (unit : isUnitChar c = true) :
    Text.isBlank c = false := by
  rw [isUnitChar, Bool.or_eq_true, beq_iff_eq] at unit
  rcases unit with letter | rfl
  · exact Text.isBlank_eq_false_of_isAlphabetic letter
  · decide

/-- A name consists of letters, underscores and digits. -/
theorem IsName.isNameChar_of_mem (h : IsName name) {c : Char} (mem : c ∈ name.toList) :
    isNameChar c = true := by
  obtain ⟨d, cs, row, start, follow⟩ := h
  rw [row] at mem
  rcases List.mem_cons.1 mem with rfl | mem
  · exact Bool.or_eq_true_iff.2 (.inl start)
  · exact follow c mem

/-! ## From tokens to names -/

namespace Token

/-- A conversion has no identifier in it. -/
theorem notMem_scanConversion {cs rest : List Char}
    (h : scanConversion cs = .ok (tokens, rest)) : .identifier name ∉ tokens := by
  obtain ⟨⟨source, afterSource⟩, -, h⟩ := bind_eq_ok.1 h
  dsimp only at h
  split at h
  · obtain ⟨⟨target, afterTarget⟩, -, h⟩ := bind_eq_ok.1 h
    dsimp only at h
    split at h
    · cases h
      simp
    · cases h
  · cases h

/-- A number has no identifier in it. -/
theorem notMem_scanNumber {cs rest : List Char}
    (h : scanNumber l cs = .ok (tokens, rest)) : .identifier name ∉ tokens := by
  obtain ⟨⟨mantissa, afterMantissa⟩, -, h⟩ := bind_eq_ok.1 h
  obtain ⟨⟨exponent, afterExponent⟩, -, h⟩ := bind_eq_ok.1 h
  have marker : .identifier name ∉ (scanMarker l afterExponent).1 := by
    unfold scanMarker
    split
    · simp
    · split <;> simp
  dsimp only at h
  generalize scanMarker l afterExponent = found at h marker
  obtain ⟨markers, afterMarker⟩ := found
  cases h
  simpa using marker

/-- The class of the next character is that of the next character of a name. -/
theorem continuesName_takeWhile {cs : List Char} (h : continuesName cs = true) :
    continuesName (cs.takeWhile isNameChar) = true := by
  cases cs with
  | nil => cases h
  | cons d rest =>
    have letter : isNameChar d = true := (Bool.and_eq_true _ _ ▸ h : _ ∧ _).2
    rwa [List.takeWhile_cons_of_pos letter]

/-- An identifier that a step finds is a name of the lettering. -/
theorem spells_of_mem_scanStep {c : Char} {cs rest : List Char}
    (h : scanStep l c cs = .ok (tokens, rest)) (mem : .identifier name ∈ tokens) :
    l.Spells name := by
  unfold scanStep at h
  split at h
  · cases h
    simp at mem
  · split at h
    · exact absurd mem (notMem_scanConversion h)
    · split at h
      · rename_i token operator
        cases h
        obtain rfl := List.mem_singleton.1 mem
        unfold operator? at operator
        split at operator <;> cases operator
      · split at h
        · rename_i starts
          cases h
          obtain rfl : name = _ := Token.identifier.inj (List.mem_singleton.1 mem)
          refine ⟨c, cs.takeWhile isNameChar, String.toList_ofList, ?_, ?_⟩
          · simp only [startsName, Bool.and_eq_true, Bool.or_eq_true] at starts ⊢
            exact ⟨starts.1, starts.2.imp_right continuesName_takeWhile⟩
          · exact fun d mem => List.all_eq_true.1 List.all_takeWhile d mem
        · split at h
          · cases h
            simp at mem
          · split at h
            · exact absurd mem (notMem_scanNumber h)
            · split at h
              · cases h
                simp at mem
              · cases h

/-- Every token of a text comes from a step of the scan. -/
theorem exists_scanStep {token : Token} {limit : Nat} {cs : List Char}
    (h : scanUpTo l limit cs = .ok tokens) (mem : token ∈ tokens) :
    ∃ c cs first rest, scanStep l c cs = .ok (first, rest) ∧ token ∈ first := by
  induction limit generalizing cs tokens with
  | zero => cases cs <;> cases h <;> cases mem
  | succ limit ih =>
    cases cs with
    | nil =>
      cases h
      cases mem
    | cons c cs =>
      obtain ⟨⟨first, rest⟩, step, h⟩ := bind_eq_ok.1 h
      obtain ⟨others, scanned, h⟩ := bind_eq_ok.1 h
      cases h
      rcases List.mem_append.1 mem with mem | mem
      · exact ⟨c, cs, first, rest, step, mem⟩
      · exact ih scanned mem

/-- What is scanned as a name is spelled like one. -/
theorem spells_of_mem_scan (h : scan l text = .ok tokens) (mem : .identifier name ∈ tokens) :
    l.Spells name := by
  obtain ⟨c, cs, first, rest, step, mem⟩ := exists_scanStep h mem
  exact spells_of_mem_scanStep step mem

/-! ## From names to tokens -/

/-- What follows a name that goes on does not stop it. -/
theorem continuesName_append {cs : List Char} (h : continuesName cs = true) (rest : List Char) :
    continuesName (cs ++ rest) = true := by
  cases cs with
  | nil => cases h
  | cons d cs => exact h

/-- A name is scanned up to a character that does not go on with it. -/
theorem scanStep_name {c : Char} {cs rest : List Char} (starts : startsName l c cs = true)
    (follow : ∀ d ∈ cs, isNameChar d = true) (stop : ∀ d ∈ rest.head?, isNameChar d = false) :
    scanStep l c (cs ++ rest) = .ok ([.identifier (String.ofList (c :: cs))], rest) := by
  obtain ⟨start, glyph⟩ : isNameStart c = true ∧ (!l.isGlyph c || continuesName cs) = true :=
    Bool.and_eq_true _ _ ▸ starts
  have assignment (behind : List Char) : assignment? (c :: behind) = none := by
    unfold assignment?
    split
    all_goals first | rfl | (rename_i found; cases found; exact absurd start (by decide))
  have bracket : c ≠ '[' := by
    rintro rfl
    exact absurd start (by decide)
  have operator : operator? c = none := by
    unfold operator?
    split
    all_goals first | rfl | exact absurd start (by decide)
  have named : startsName l c (cs ++ rest) = true := by
    rw [Bool.or_eq_true] at glyph
    rw [startsName, start, Bool.true_and, Bool.or_eq_true]
    exact glyph.imp_right fun h => continuesName_append h rest
  obtain ⟨taken, left⟩ := span_append follow stop
  unfold scanStep
  rw [assignment]
  simp only [bracket, if_false, operator, named, if_true, taken, left]

/-- Characters that spell a name, up to the end of the text, are one identifier. -/
theorem ofChars_name {c : Char} {cs : List Char} (starts : startsName l c cs = true)
    (follow : ∀ d ∈ cs, isNameChar d = true) :
    ofChars l (c :: cs) = .ok [.identifier (String.ofList (c :: cs))] := by
  have step := @scanStep_name l c cs [] starts follow (by simp)
  rw [List.append_nil] at step
  rw [ofChars_step step]
  rfl

/-- Text is scanned as one name exactly where it is spelled like one. -/
theorem scan_eq_identifier_iff : scan l name = .ok [.identifier name] ↔ l.Spells name := by
  constructor
  · intro h
    exact spells_of_mem_scan h List.mem_cons_self
  · rintro ⟨c, cs, row, starts, follow⟩
    obtain rfl : name = String.ofList (c :: cs) := String.toList_injective (by simp [row])
    rw [scan_ofList]
    exact ofChars_name starts follow

end Token

end Calculator
