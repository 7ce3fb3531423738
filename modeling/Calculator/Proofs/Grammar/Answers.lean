import Calculator.Proofs.Complex.Conjugation
import Calculator.Proofs.Grammar.Descent
import Calculator.Proofs.Grammar.Meaning

/-!
# Answers of readings

A reading keeps the expressions in front of a fault, and they are evaluated when it is over. The
descent evaluates an expression before it goes on to the tokens behind it. What a reading comes to is
its answer: the value of its expression and the position of the tokens after it, or the failure that
its evaluation ends with. An expression that fails has the last word, whatever stands behind it.
-/

namespace Calculator.Descent

open Calculator.Expr Calculator.Grammar

variable {ts tokens rest : List Token} {scope : Scope} {p q depth limit : Nat} {e left : Expr}
  {x : EvalError} {z : Complex}

/-! ## Positions -/

/-- The first two tokens of a list that has them. -/
theorem exists_of_first_two {first second : Token} (head : tokens.head? = some first)
    (next : tokens[1]? = some second) : ∃ rest, tokens = first :: second :: rest := by
  obtain ⟨tail, rfl⟩ := List.head?_eq_some_iff.1 head
  rw [List.getElem?_cons_succ, ← List.head?_eq_getElem?] at next
  obtain ⟨rest, rfl⟩ := List.head?_eq_some_iff.1 next
  exact ⟨rest, rfl⟩

/-- The tokens from a position on, which may be the end. -/
def At (ts : List Token) (p : Nat) (tokens : List Token) : Prop :=
  ∃ front, front ++ tokens = ts ∧ front.length = p

namespace At

/-- What is left behind a position. -/
theorem drop (inside : p ≤ ts.length) : At ts p (ts.drop p) :=
  ⟨ts.take p, List.take_append_drop p ts, List.length_take_of_le inside⟩

/-- The position and what is left make up the line. -/
theorem length (h : At ts p tokens) : p + tokens.length = ts.length := by
  obtain ⟨front, rfl, rfl⟩ := h
  exact List.length_append.symm

/-- The position can be told from the number of tokens that are left. -/
theorem position (h : At ts p tokens) : ts.length - tokens.length = p := by
  have total := h.length
  omega

/-- A token is looked up from the position. -/
theorem getElem? (h : At ts p tokens) (i : Nat) : ts[p + i]? = tokens[i]? := by
  obtain ⟨front, rfl, rfl⟩ := h
  rw [List.getElem?_append_right (Nat.le_add_right _ _), Nat.add_sub_cancel_left]

theorem le (h : At ts p tokens) : p ≤ ts.length := by
  have total := h.length
  omega

/-- Less is left further on. -/
theorem length_lt (h : At ts p tokens) (behind : At ts q rest) (later : p < q) :
    rest.length < tokens.length := by
  have total := h.length
  have rest_total := behind.length
  omega

theorem head? (h : At ts p tokens) : ts[p]? = tokens.head? := by
  rw [List.head?_eq_getElem?]
  exact h.getElem? 0

/-- Behind a part of what is left. -/
theorem append {front : List Token} (h : At ts p (front ++ tokens)) :
    At ts (p + front.length) tokens := by
  obtain ⟨before, rfl, rfl⟩ := h
  exact ⟨before ++ front, List.append_assoc _ _ _, List.length_append⟩

theorem next {token : Token} (h : At ts p (token :: tokens)) : At ts (p + 1) tokens :=
  (show At ts p ([token] ++ tokens) from h).append

theorem drop_eq (h : At ts p tokens) : ts.drop p = tokens := by
  obtain ⟨front, rfl, rfl⟩ := h
  exact List.drop_left

end At

/-! ## The readers of the functions -/

/-- A name or a number. -/
def readAtom : List Token → Reading Expr
  | .identifier text :: rest => .ok (.name text, rest)
  | tokens => readLiteral tokens

/-- A name with a bracket after it, or an atom. -/
def readCalled (inner : List Token → Reading Expr) : List Token → Reading Expr
  | .identifier function :: .openBracket :: rest => readCall inner function rest
  | tokens => readAtom tokens

/-- An operand without a bracket is a call or an atom. -/
theorem readOperand_eq_readCalled {inner : List Token → Reading Expr}
    (other : ∀ rest, tokens ≠ .openBracket :: rest) :
    readOperand inner tokens = readCalled inner tokens := by
  unfold readOperand
  split
  · exact absurd rfl (other _)
  · rfl
  · rename_i none
    rw [readCalled, readAtom]
    rintro function rest ⟨⟩
    exact none rest rfl
  · rename_i none call name
    rw [readCalled, readAtom]
    · exact name
    · exact call

theorem readAtom_sound : Sound readAtom .atom := by
  intro tokens e rest h
  unfold readAtom at h
  split at h
  · rename_i text after
    cases h
    exact ⟨.name text, rfl, rfl⟩
  · exact readLiteral_sound h

/-- What is read as a call derives from the rule for calls. -/
theorem readCalled_sound {inner : List Token → Reading Expr} (sound : Sound inner .sum) :
    Sound (readCalled inner) .call := by
  intro tokens e rest h
  unfold readCalled at h
  split at h
  · exact readCall_sound sound h
  · obtain ⟨t, same, taken⟩ := readAtom_sound h
    exact ⟨.ofAtom t, same, taken⟩

namespace Level

/-- The reader of a function, given the one for the inside of brackets. -/
def reader (inner : List Token → Reading Expr) : Level → List Token → Reading Expr
  | sum => readSum inner
  | product => readProduct inner
  | power => readPower inner
  | converted => readConverted inner
  | signed => readSigned (readOperand inner)
  | bracketed => readOperand inner
  | call => readCalled inner
  | atom => readAtom
  | number => readLiteral

/-- The kind of phrase that a function reads. -/
def phrase : Level → Phrase
  | sum => .sum
  | product => .product
  | power => .power
  | converted => .converted
  | signed => .signed
  | bracketed => .bracketed
  | call => .call
  | atom | number => .atom

theorem sound (level : Level) (depth : Nat) : Sound (level.reader (readWithin depth)) level.phrase := by
  have inner : Sound (readWithin depth) .sum := readWithin_sound depth
  intro tokens e rest h
  cases level with
  | sum => exact readSum_sound inner h
  | product => exact readProduct_sound inner h
  | power => exact readPower_sound inner h
  | converted => exact readConverted_sound inner h
  | signed => exact readSigned_sound (readOperand_sound inner) h
  | bracketed => exact readOperand_sound inner h
  | call => exact readCalled_sound inner h
  | atom => exact readAtom_sound h
  | number => exact readLiteral_sound h

/-- A reader takes one token at least, and leaves some of those that it was given. -/
theorem advances (level : Level) (h : At ts p tokens)
    (read : level.reader (readWithin depth) tokens = .ok (e, rest)) :
    ∃ q, At ts q rest ∧ p < q := by
  obtain ⟨t, -, rfl⟩ := level.sound depth read
  exact ⟨_, h.append, Nat.lt_add_of_pos_right t.tokens_pos⟩

end Level

/-! ## The answers of readings -/

/-- What a reading comes to: the value of the expression and the position of the tokens after it. A fault
has no value, so the position that stands there for it is never given. -/
def answerOf (ts : List Token) (scope : Scope) : Reading Expr → Except EvalError (Complex × Nat)
  | .error broken => do return (← broken.eval scope, ts.length)
  | .ok (e, rest) => do return (← e.eval scope, ts.length - rest.length)

/-- A broken expression has an error and never a value. -/
theorem Broken.exists_eval_eq (scope : Scope) (broken : Broken) :
    ∃ x, broken.eval scope = .error x := by
  cases h : broken.eval scope with
  | error x => exact ⟨x, rfl⟩
  | ok z => exact absurd h (broken_eval_ne scope broken z)

/-- Where the grammar fails, the expressions in front are evaluated first, and their errors
count. -/
theorem Broken.eval_after (scope : Scope) (broken : Broken) (e : Expr) :
    (broken.after e).eval scope = e.eval scope >>= fun _ => broken.eval scope := by
  simp only [Broken.eval, Broken.after, List.mapM_cons]
  cases e.eval scope with
  | error x => rfl
  | ok z => cases broken.complete.mapM (Expr.eval scope) <;> rfl

/-- A read expression without a value answers its error. -/
theorem answerOf_ok_of_error (failed : e.eval scope = .error x) :
    answerOf ts scope (.ok (e, rest)) = .error x := by
  rw [answerOf, failed]
  rfl

/-- A read expression with a value answers it, and the position behind the expression. -/
theorem answerOf_ok_of_ok (valued : e.eval scope = .ok z) :
    answerOf ts scope (.ok (e, rest)) = .ok (z, ts.length - rest.length) := by
  rw [answerOf, valued]
  rfl

/-- The error of an expression in front of the fault is answered instead of the fault. -/
theorem answerOf_after_of_error (broken : Broken) (failed : e.eval scope = .error x) :
    answerOf ts scope (.error (broken.after e)) = .error x := by
  rw [answerOf, Broken.eval_after, failed]
  rfl

/-- An expression in front that has a value does not hide the fault. -/
theorem answerOf_after_of_ok (broken : Broken) (valued : e.eval scope = .ok z) :
    answerOf ts scope (.error (broken.after e)) = answerOf ts scope (.error broken) := by
  rw [answerOf, Broken.eval_after, valued]
  rfl

/-- A fault is never answered with a value. -/
theorem exists_answerOf_error (ts : List Token) (scope : Scope) (broken : Broken) :
    ∃ x, answerOf ts scope (.error broken) = .error x := by
  obtain ⟨x, failure⟩ := Broken.exists_eval_eq scope broken
  refine ⟨x, ?_⟩
  rw [answerOf, failure]
  rfl

/-- A value has an expression behind it, and the tokens after that. -/
theorem exists_read_of_answerOf (level : Level) (h : At ts p tokens)
    (answer : answerOf ts scope (level.reader (readWithin depth) tokens) = .ok (z, q)) :
    ∃ e rest, level.reader (readWithin depth) tokens = .ok (e, rest) ∧ At ts q rest ∧ p < q := by
  cases reading : level.reader (readWithin depth) tokens with
  | error broken =>
    obtain ⟨x, failure⟩ := exists_answerOf_error ts scope broken
    rw [reading, failure] at answer
    cases answer
  | ok read =>
    obtain ⟨e, rest⟩ := read
    obtain ⟨r, behind, later⟩ := level.advances h reading
    rw [reading, answerOf, behind.position] at answer
    obtain ⟨w, -, same⟩ := bind_eq_ok.1 answer
    cases same
    exact ⟨e, rest, rfl, behind, later⟩

/-- What fails before an operation fails after it. -/
theorem answerOf_readChain_of_error {op? : Token → Option BinaryOp}
    {operand : List Token → Reading Expr} (failed : left.eval scope = .error x) :
    answerOf ts scope (readChain op? operand limit left tokens) = .error x := by
  induction limit generalizing left tokens with
  | zero => cases tokens <;> exact answerOf_ok_of_error failed
  | succ limit ih =>
    cases tokens with
    | nil => exact answerOf_ok_of_error failed
    | cons token tokens =>
      rw [readChain]
      cases op? token with
      | none => exact answerOf_ok_of_error failed
      | some op =>
        dsimp only
        cases operand tokens with
        | error broken => exact answerOf_after_of_error _ failed
        | ok read => exact ih (by rw [Expr.eval, failed]; rfl)

/-- Conversions of an operand without a value answer its error. -/
theorem answerOf_readConversions_of_error (failed : e.eval scope = .error x) :
    answerOf ts scope (readConversions e tokens) = .error x := by
  fun_induction readConversions e tokens with
  | case1 e source target rest ih => exact ih (by rw [Expr.eval, failed]; rfl)
  | case2 e rest =>
    exact answerOf_after_of_error ⟨[], .conversionForm⟩ failed
  | case3 => exact answerOf_ok_of_error failed

/-- A value behind a sign, which changes it if it is a minus. -/
def signed (negative : Bool) (read : Complex × Nat) : Complex × Nat :=
  (if negative then -read.1 else read.1, read.2)

/-- Two signs are one. -/
theorem signed_signed (outer inner : Bool) (read : Complex × Nat) :
    signed outer (signed inner read) = signed (xor inner outer) read := by
  cases outer <;> cases inner <;> simp [signed, Complex.neg_neg_eq]

/-- A sign does not change whether there is an answer. -/
theorem answerOf_signed (negative : Bool) (reading : Reading Expr) :
    answerOf ts scope (reading.map fun read => (.signed negative read.1, read.2)) =
      (answerOf ts scope reading).map (signed negative) := by
  rcases reading with broken | ⟨e, rest⟩
  · obtain ⟨x, failure⟩ := exists_answerOf_error ts scope broken
    simp only [Except.map, failure]
  · simp only [Except.map, answerOf, Expr.eval]
    cases e.eval scope <;> rfl

/-- What a reading of arguments comes to after arguments with these values. The function is looked up by
the number of all of them. -/
def callAnswer (ts : List Token) (scope : Scope) (function : String) (values : List Complex) :
    Reading Arguments → Except EvalError (Complex × Nat)
  | .error broken => answerOf ts scope (.error broken)
  | .ok (arguments, rest) => do
    let values := values ++ (← arguments.eval scope)
    match rest with
    | .closeBracket :: rest => do
      let z ← (← BuiltIn.find function values.length).apply scope.angleUnit values
      return (z, ts.length - rest.length)
    | _ => throw (.grammar .noClosingBracket)

/-- The arguments are evaluated from the first to the last. -/
theorem mapM_toList (scope : Scope) :
    ∀ arguments : Arguments, arguments.toList.mapM (Expr.eval scope) = arguments.eval scope
  | .last argument => by
    rw [Arguments.toList, List.mapM_cons, List.mapM_nil, Arguments.eval]
    rfl
  | .cons argument rest => by
    rw [Arguments.toList, List.mapM_cons, mapM_toList scope rest, Arguments.eval]

/-- A call is answered by its arguments, none of which is evaluated at first. -/
theorem answerOf_readCall {inner : List Token → Reading Expr} {function : String} :
    answerOf ts scope (readCall inner function tokens) =
      callAnswer ts scope function [] (readArguments inner tokens.length tokens) := by
  rw [readCall]
  cases readArguments inner tokens.length tokens with
  | error broken => rfl
  | ok read =>
    obtain ⟨arguments, rest⟩ := read
    rcases rest with _ | ⟨token, rest⟩
    · simp only [answerOf, callAnswer, Broken.eval, mapM_toList, bind_assoc]
      rfl
    · cases token with
      | closeBracket =>
        simp only [answerOf, callAnswer, Expr.eval, List.nil_append, bind_assoc]
      | _ =>
        simp only [answerOf, callAnswer, Broken.eval, mapM_toList, bind_assoc]
        rfl

/-- The first argument is evaluated before the next one is read. -/
theorem callAnswer_cons {inner : List Token → Reading Expr} {argument : Expr} {function : String}
    {values : List Complex} (read : inner tokens = .ok (argument, .semicolon :: rest)) :
    callAnswer ts scope function values (readArguments inner (limit + 1) tokens) =
      argument.eval scope >>= fun z =>
        callAnswer ts scope function (values ++ [z]) (readArguments inner limit rest) := by
  rw [readArguments, read]
  dsimp only
  cases readArguments inner limit rest with
  | error broken =>
    simp only [callAnswer, answerOf, Broken.eval_after, bind_assoc]
  | ok read =>
    simp only [callAnswer, Arguments.eval, bind_assoc, pure_bind, List.append_assoc,
      List.singleton_append]

/-- An argument without a semicolon behind it is the last one. -/
theorem callAnswer_last {inner : List Token → Reading Expr} {argument : Expr} {function : String}
    {values : List Complex} (read : inner tokens = .ok (argument, rest))
    (other : ∀ behind, rest ≠ .semicolon :: behind) :
    callAnswer ts scope function values (readArguments inner (limit + 1) tokens) =
      callAnswer ts scope function values (.ok (.last argument, rest)) := by
  rw [readArguments, read]
  split
  · rename_i broken found
    cases found
  · rename_i behind found
    cases found
    exact absurd rfl (other behind)
  · rename_i found
    cases found
    rfl

/-- An argument without a value ends the call with its error. -/
theorem callAnswer_of_error {inner : List Token → Reading Expr} {argument : Expr} {function : String}
    {values : List Complex} (read : inner tokens = .ok (argument, rest))
    (failed : argument.eval scope = .error x) :
    callAnswer ts scope function values (readArguments inner (limit + 1) tokens) = .error x := by
  by_cases more : ∃ behind, rest = .semicolon :: behind
  · obtain ⟨behind, rfl⟩ := more
    rw [callAnswer_cons read, failed]
    rfl
  · rw [callAnswer_last read (fun behind same => more ⟨behind, same⟩), callAnswer, Arguments.eval,
      failed]
    rfl

end Calculator.Descent
