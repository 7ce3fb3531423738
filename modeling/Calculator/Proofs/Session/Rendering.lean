import Calculator.Proofs.Numeral.Reading
import Calculator.Proofs.Session.Evaluation

/-!
# Rendered numbers are expressions

The text that a session shows for a complex number is a signed numeral, a signed numeral with the
imaginary letter, or both with a sign between them. Each form is scanned into a few tokens, these
are read as an expression, and its value is the number that was shown: the given one with both
parts rounded to the digits of the format.
-/

namespace Calculator

open Token (EndsNumeral ofChars ofChars_step ofChars_numeral scanStep_blank scanStep_sign)

variable {g : ComplexFormat} {w v : WrittenNumeral} {l : Lettering}

/-! ## Tokens -/

/-- A numeral ends with the text. -/
theorem endsNumeral_nil : EndsNumeral l [] where
  digit c mem := by cases mem
  separator c mem := by cases mem
  exponent c mem := by cases mem

/-- A numeral ends before the letter of the imaginary unit. -/
theorem endsNumeral_glyph : EndsNumeral g.lettering [g.imaginaryUnit.glyph] where
  digit := by
    rintro c ⟨⟩
    cases g.imaginaryUnit <;> rfl
  separator := by
    rintro c ⟨⟩
    unfold Lettering.isSeparator
    cases g.imaginaryUnit <;> cases g.lettering.separator <;> rfl
  exponent := by
    intro c mem
    have solid : Text.trimStart [g.imaginaryUnit.glyph] = [g.imaginaryUnit.glyph] := by
      cases g.imaginaryUnit <;> rfl
    rw [solid] at mem
    cases mem
    cases g.imaginaryUnit <;> rfl

/-- A numeral ends before the sign between the two parts. -/
theorem endsNumeral_sign (negative : Bool) (cs : List Char) :
    EndsNumeral l (' ' :: (if negative then '-' else '+') :: cs) where
  digit := by
    rintro c ⟨⟩
    rfl
  separator := by
    rintro c ⟨⟩
    unfold Lettering.isSeparator
    cases l.separator <;> rfl
  exponent := by
    cases negative <;> rintro c ⟨⟩ <;> rfl

/-- The letter behind a numeral is its marker. -/
theorem scanMarker_glyph :
    Token.scanMarker g.lettering [g.imaginaryUnit.glyph] = ([.imaginaryOne], []) := by
  obtain ⟨number, unit⟩ := g
  cases unit <;> rfl

/-- A sign behind a numeral is no marker. -/
theorem scanMarker_sign (negative : Bool) (cs : List Char) :
    Token.scanMarker l (' ' :: (if negative then '-' else '+') :: cs) =
      ([], ' ' :: (if negative then '-' else '+') :: cs) := by
  obtain ⟨separator, unit⟩ := l
  cases negative <;> cases unit <;> rfl

/-- The text of a real number is one token. -/
theorem ofChars_real :
    ofChars g.lettering (w.chars g.number) = .ok [.number (String.ofList (w.chars g.number))] := by
  have scanned := ofChars_numeral (g := g) (w := w) endsNumeral_nil
  rw [List.append_nil] at scanned
  exact scanned

/-- The text of an imaginary number is two tokens. -/
theorem ofChars_imaginary :
    ofChars g.lettering (w.chars g.number ++ [g.imaginaryUnit.glyph]) =
      .ok [.number (String.ofList (w.chars g.number)), .imaginaryOne] := by
  rw [ofChars_numeral endsNumeral_glyph, scanMarker_glyph]
  rfl

/-- A blank, a sign and a blank are one token. -/
theorem ofChars_between (negative : Bool) {cs : List Char} {tokens : List Token}
    (digit : ∀ c ∈ cs.head?, c.isDigit) (rest : ofChars l cs = .ok tokens) :
    ofChars l (' ' :: (if negative then '-' else '+') :: ' ' :: cs) =
      .ok ((if negative then .minus else .plus) :: tokens) := by
  have solid : Text.trimStart cs = cs := trimStart_eq_self fun c mem =>
    Text.isBlank_eq_false_of_isDigit (digit c mem)
  have first := scanStep_blank l ((if negative then '-' else '+') :: ' ' :: cs)
  have sign := @scanStep_sign l negative (' ' :: cs) (by rintro c ⟨⟩; decide)
  have second := scanStep_blank l cs
  have signSolid : Text.trimStart ((if negative then '-' else '+') :: ' ' :: cs) =
      (if negative then '-' else '+') :: ' ' :: cs := by
    cases negative <;> rfl
  rw [signSolid] at first
  rw [solid] at second
  rw [ofChars_step first, ofChars_step sign, ofChars_step second, rest]
  rfl

/-- The text of both parts is four tokens. -/
theorem ofChars_both (negative : Bool) :
    ofChars g.lettering (w.chars g.number ++ ' ' :: (if negative then '-' else '+') :: ' ' ::
        (v.chars g.number ++ [g.imaginaryUnit.glyph])) =
      .ok [.number (String.ofList (w.chars g.number)), if negative then .minus else .plus,
        .number (String.ofList (v.chars g.number)), .imaginaryOne] := by
  rw [ofChars_numeral (endsNumeral_sign negative _), scanMarker_sign]
  dsimp only
  rw [ofChars_between negative (WrittenNumeral.head_chars _) ofChars_imaginary]
  rfl

/-- A minus in front of a numeral is a token of its own. -/
theorem ofChars_signed (negative : Bool) {cs : List Char} {tokens : List Token}
    (digit : ∀ c ∈ cs.head?, c.isDigit) (rest : ofChars l cs = .ok tokens) :
    ofChars l (if negative then '-' :: cs else cs) =
      .ok (if negative then .minus :: tokens else tokens) := by
  cases negative with
  | false => exact rest
  | true =>
    have plain : ∀ c ∈ cs.head?, c ≠ '=' := by
      rintro c mem rfl
      cases digit '=' mem
    have sign : Token.scanStep l '-' cs = .ok ([.minus], cs) := scanStep_sign l true plain
    simp only [if_true]
    rw [ofChars_step sign, rest]
    rfl

/-! ## Expressions -/

/-- An operand with a minus in front of it, or without one. -/
def Expr.withSign (negative : Bool) (e : Expr) : Expr := if negative then .signed true e else e

/-- A sign in front of an expression is carried out. -/
theorem eval_withSign (scope : Scope) {e : Expr} {z : Complex} (negative : Bool)
    (value : e.eval scope = .ok z) :
    (e.withSign negative).eval scope = .ok (if negative then -z else z) := by
  cases negative with
  | false => exact value
  | true =>
    simp only [Expr.withSign, if_true, Expr.eval, value]
    rfl

theorem numeralValue_eq {text : String} {x : Decimal} (parsed : Decimal.parse text = .ok x) :
    numeralValue text = .ok x := by
  unfold numeralValue
  rw [parsed]

/-- A numeral is the real number that it is parsed as. -/
theorem eval_numeral {scope : Scope} {text : String} {x : Decimal}
    (parsed : Decimal.parse text = .ok x) :
    (Expr.literal (.numeral text)).eval scope = .ok (.ofReal x) := by
  simp only [Expr.eval, Literal.value, numeralValue_eq parsed]
  rfl

/-- A numeral with a marker is imaginary, on whichever side of it the marker stands. -/
theorem eval_imaginary {scope : Scope} {text : String} {x : Decimal} (markerFirst : Bool)
    (parsed : Decimal.parse text = .ok x) :
    (Expr.literal (.imaginary text markerFirst)).eval scope = .ok ⟨.zero, x⟩ := by
  simp only [Expr.eval, Literal.value, numeralValue_eq parsed]
  rfl

theorem eval_binary {scope : Scope} {op : BinaryOp} {left right : Expr} {z w result : Complex}
    (leftValue : left.eval scope = .ok z) (rightValue : right.eval scope = .ok w)
    (applied : op.apply z w = .ok result) :
    (Expr.binary op left right).eval scope = .ok result := by
  rw [Expr.eval, leftValue, rightValue]
  simp only [bind, Except.bind, applied]
  rfl

/-- A numeral and an imaginary numeral with a sign between them are a sum or a difference. -/
theorem ofTokens_both (l : Lettering) (negative subtracted : Bool) (text text' : String) :
    let tokens := [.number text, if subtracted then .minus else .plus, .number text', .imaginaryOne]
    Statement.ofTokens l (if negative then .minus :: tokens else tokens) =
      ⟨[], .ok (.binary (if subtracted then .sub else .add)
        ((Expr.literal (.numeral text)).withSign negative) (.literal (.imaginary text' false))),
        none⟩ := by
  cases negative <;> cases subtracted <;> rfl

/-- A line without assignments gives the value of its expression. -/
theorem evaluate_of_tokens {session : Session} {cs : List Char} {tokens : List Token} {e : Expr}
    {z : Complex} (scanned : ofChars session.lettering cs = .ok tokens)
    (read : Statement.ofTokens session.lettering tokens = ⟨[], .ok e, none⟩)
    (value : e.eval session.scope = .ok z) :
    session.evaluate (String.ofList cs) = (.ok z, { session with result := some z }) := by
  have run : (⟨[], .ok e, none⟩ : Statement).run session.scope = (.ok z, session.vars) := by
    simp only [Statement.run, assign, Statement.value, value]
    rfl
  exact evaluate_eq_run ((Token.scan_ofList _ _).trans scanned) (read ▸ run)

/-! ## The three forms -/

variable {session : Session} {x y re im : Decimal} {f : NumberFormat} {z : Complex}

/-- The layout of a working value, and what its numeral is read as. -/
theorem layout_numeral (hx : x.IsWorking) (f : NumberFormat) :
    ∃ w : WrittenNumeral, f.layout x = (if x.isNegative then '-' :: w.chars f else w.chars f) ∧
      Decimal.parse (String.ofList (w.chars f)) = .ok x.abs := by
  obtain ⟨w, value, layout⟩ := NumberFormat.layout_eq f hx.adjusted_short
  exact ⟨w, layout, WrittenNumeral.parse_chars hx.abs (by rw [value, Decimal.value_abs])⟩

/-- Without its sign a working value is written as a numeral that is parsed as it. -/
theorem layout_abs_numeral (hx : x.IsWorking) (f : NumberFormat) :
    ∃ w : WrittenNumeral, f.layout x.abs = w.chars f ∧
      Decimal.parse (String.ofList (w.chars f)) = .ok x.abs := by
  obtain ⟨w, value, layout⟩ := NumberFormat.layout_eq f hx.abs.adjusted_short
  rw [Decimal.isNegative_abs, if_neg (by decide)] at layout
  refine ⟨w, layout, WrittenNumeral.parse_chars hx.abs ?_⟩
  rw [value, Decimal.value_abs, abs_abs]

/-- Size and sign make up the number. -/
theorem signed_ofReal (x : Decimal) :
    (if x.isNegative then -Complex.ofReal x.abs else .ofReal x.abs) = .ofReal x := by
  have choice := Decimal.signed_abs x
  split at choice <;> rename_i sign
  · rw [if_pos sign, ← congrArg Complex.ofReal choice]
    exact congrArg _ Decimal.neg_zero_eq
  · rw [if_neg sign, choice]

/-- The text of a real number is evaluated to it. -/
theorem evaluate_real (hx : x.IsWorking) :
    session.evaluate (String.ofList (session.settings.format.number.layout x)) =
      (.ok (.ofReal x), { session with result := some (.ofReal x) }) := by
  obtain ⟨w, layout, parsed⟩ := layout_numeral hx session.settings.format.number
  have value := eval_withSign session.scope x.isNegative (eval_numeral parsed)
  rw [signed_ofReal] at value
  rw [layout]
  have front := w.head_chars (f := session.settings.format.number) []
  rw [List.append_nil] at front
  refine evaluate_of_tokens (ofChars_signed _ front ofChars_real) ?_ value
  cases x.isNegative <;> rfl

/-- The text of an imaginary number is evaluated to it. -/
theorem evaluate_imaginary (hy : y.IsWorking) :
    session.evaluate (String.ofList
        (if y.isNegative then
          '-' :: (session.settings.format.number.layout y.abs ++
            [session.settings.format.imaginaryUnit.glyph])
        else session.settings.format.number.layout y.abs ++
          [session.settings.format.imaginaryUnit.glyph])) =
      (.ok ⟨.zero, y⟩, { session with result := some ⟨.zero, y⟩ }) := by
  obtain ⟨w, layout, parsed⟩ := layout_abs_numeral hy session.settings.format.number
  have value := eval_withSign session.scope y.isNegative (eval_imaginary false parsed)
  have signed : (if y.isNegative then -⟨.zero, y.abs⟩ else ⟨.zero, y.abs⟩ : Complex) =
      ⟨.zero, y⟩ := by
    have choice := Decimal.signed_abs y
    split at choice <;> rename_i sign
    · rw [if_pos sign]
      exact congrArg₂ Complex.mk Decimal.neg_zero_eq choice
    · rw [if_neg sign, choice]
  rw [signed] at value
  rw [layout]
  refine evaluate_of_tokens (ofChars_signed _ (WrittenNumeral.head_chars _) ofChars_imaginary) ?_ value
  cases y.isNegative <;> rfl

/-- Adding an imaginary number to a real one, or subtracting it, puts the parts together. -/
theorem apply_parts (hx : x.IsWorking) (hy : y.IsWorking) :
    (if y.isNegative then BinaryOp.sub else .add).apply (.ofReal x) ⟨.zero, y.abs⟩ =
      .ok ⟨x, y⟩ := by
  have choice := Decimal.signed_abs y
  split at choice <;> rename_i sign
  · rw [if_pos sign]
    simp only [BinaryOp.apply, Complex.sub, Complex.ofReal, Decimal.sub_zero_eq hx,
      Decimal.zero_sub_eq hy.abs, choice]
    rfl
  · rw [if_neg sign, choice]
    simp only [BinaryOp.apply, Complex.add, Complex.ofReal, Decimal.add_zero_eq hx,
      Decimal.zero_add_eq hy]
    rfl

/-- The text of both parts is evaluated to the complex number. -/
theorem evaluate_both (hx : x.IsWorking) (hy : y.IsWorking) :
    session.evaluate (String.ofList (session.settings.format.number.layout x ++
        ' ' :: (if y.isNegative then '-' else '+') :: ' ' ::
          (session.settings.format.number.layout y.abs ++
            [session.settings.format.imaginaryUnit.glyph]))) =
      (.ok ⟨x, y⟩, { session with result := some ⟨x, y⟩ }) := by
  obtain ⟨w, layout, parsed⟩ := layout_numeral hx session.settings.format.number
  obtain ⟨v, layoutAbs, parsedAbs⟩ := layout_abs_numeral hy session.settings.format.number
  have leftValue := eval_withSign session.scope x.isNegative (eval_numeral parsed)
  rw [signed_ofReal] at leftValue
  have value := eval_binary leftValue (eval_imaginary false parsedAbs) (apply_parts hx hy)
  have front : ∀ rest, session.settings.format.number.layout x ++ rest =
      if x.isNegative then '-' :: (w.chars session.settings.format.number ++ rest)
      else w.chars session.settings.format.number ++ rest := by
    intro rest
    rw [layout]
    cases x.isNegative <;> rfl
  rw [front, layoutAbs]
  exact evaluate_of_tokens (ofChars_signed _ (WrittenNumeral.head_chars _) (ofChars_both _))
    (ofTokens_both ..) value

/-! ## The text of a complex number -/

/-- Only zero is shown as zero. -/
theorem layout_eq_zero_iff (hx : x.IsWorking) (f : NumberFormat) :
    String.ofList (f.layout x) = "0" ↔ x = .zero := by
  constructor
  · intro shown
    have text : f.layout x = ['0'] := String.ofList_injective shown
    obtain ⟨w, layout, parsed⟩ := layout_numeral hx f
    rw [text] at layout
    split at layout
    · cases layout
    · rename_i sign
      have zero : Decimal.parse (String.ofList ['0']) = .ok .zero :=
        WrittenNumeral.parse_chars (f := f) (w := .zero) Decimal.isWorking_zero
          (WrittenNumeral.value_zero.trans Decimal.value_zero.symm)
      rw [← layout, zero] at parsed
      have choice := Decimal.signed_abs x
      rw [if_neg sign, ← Except.ok.inj parsed] at choice
      exact choice.symm
  · rintro rfl
    rfl

theorem imaginary_text (negative : Bool) (cs : List Char) (glyph : Char) :
    (if negative then "-" ++ (String.ofList cs ++ String.singleton glyph)
      else String.ofList cs ++ String.singleton glyph) =
      String.ofList (if negative then '-' :: (cs ++ [glyph]) else cs ++ [glyph]) := by
  apply String.toList_injective
  cases negative <;> simp

theorem both_text (negative : Bool) (front cs : List Char) (glyph : Char) :
    String.ofList front ++ (if negative then " - " else " + ") ++
        (String.ofList cs ++ String.singleton glyph) =
      String.ofList (front ++
        ' ' :: (if negative then '-' else '+') :: ' ' :: (cs ++ [glyph])) := by
  apply String.toList_injective
  cases negative <;> simp

/-- What a session shows for a complex number is an expression whose value is that number with both
parts rounded to the digits of the format. Only the result is remembered. -/
theorem evaluate_render (session : Session) (z : Complex) {re im : Decimal}
    (hre : z.re.roundToPrecision session.settings.format.number.digits = .ok re)
    (him : z.im.roundToPrecision session.settings.format.number.digits = .ok im) :
    session.evaluate (session.render z) =
      (.ok ⟨re, im⟩, { session with result := some ⟨re, im⟩ }) := by
  have digit := session.settings.format.number.one_le_digits
  have few : session.settings.format.number.digits ≤ Precision.working.digits :=
    session.settings.format.number.digits_le.trans (by decide)
  obtain ⟨re_eq, reWorking⟩ := Decimal.roundToPrecision_eq_ok digit few hre
  obtain ⟨im_eq, imWorking⟩ := Decimal.roundToPrecision_eq_ok digit few him
  have abs_eq : z.im.abs.roundTo session.settings.format.number.digits = im.abs := by
    rw [im_eq, Decimal.roundTo_abs _ digit]
  have sign : z.im.isNegative = im.isNegative := by
    rw [im_eq, Decimal.isNegative_roundTo _ digit]
  have imaginaryZero := layout_eq_zero_iff imWorking.abs session.settings.format.number
  have realZero := layout_eq_zero_iff reWorking session.settings.format.number
  unfold Session.render Complex.render Decimal.render
  simp only [← re_eq, abs_eq, sign]
  by_cases imZero : im.abs = .zero
  · have vanishes : im = .zero := by
      rw [← Decimal.signed_abs im, imZero]
      split
      · exact Decimal.neg_zero_eq
      · rfl
    rw [if_pos (imaginaryZero.2 imZero), vanishes]
    exact evaluate_real reWorking
  · rw [if_neg (mt imaginaryZero.1 imZero)]
    by_cases reZero : re = .zero
    · rw [if_pos (realZero.2 reZero), reZero, imaginary_text]
      exact evaluate_imaginary imWorking
    · rw [if_neg (mt realZero.1 reZero), both_text]
      exact evaluate_both reWorking imWorking

/-- A new session reads back the number `1.5 - 2i`. -/
theorem evaluate_render_new :
    let z : Complex := ⟨⟨15, -1, .inl (by decide)⟩, -2⟩
    z.re.roundToPrecision Session.new.settings.format.number.digits = .ok z.re ∧
      z.im.roundToPrecision Session.new.settings.format.number.digits = .ok z.im ∧
      (Session.new.evaluate (Session.new.render z)).1 = .ok z := by
  refine ⟨by decide, by decide, ?_⟩
  exact congrArg Prod.fst (@evaluate_render Session.new ⟨⟨15, -1, .inl (by decide)⟩, -2⟩
    ⟨15, -1, .inl (by decide)⟩ (-2) (by decide) (by decide))

end Calculator
