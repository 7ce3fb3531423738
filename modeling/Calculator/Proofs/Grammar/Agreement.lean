import Calculator.Proofs.Grammar.Answers

/-!
# The descent agrees with the readings

Every call of the descent comes to the answer of a reading. The calls that a function makes have a
smaller weight than its own: they start at a later position, or at the same one and the function is a
tighter one. So a function agrees as soon as the calls that it makes agree, one lemma for each of
them, and the descent agrees by induction on the depth, at every depth above the weight.
-/

namespace Calculator.Descent

open Calculator.Expr Calculator.Grammar

variable {ts tokens rest : List Token} {scope : Scope} {p q depth limit : Nat} {e left : Expr}
  {x : EvalError} {z : Complex} {r : Except EvalError (Complex × Nat)}

/-! ## Weights -/

/-- How loose a function is. The rounds of a loop call nothing at their own position, apart from the
signs in front of an operand and the arguments, which are read as sums. -/
def Level.rank : Level → Nat
  | number => 0
  | atom => 1
  | call => 2
  | bracketed => 3
  | signed => 5
  | converted => 6
  | power => 7
  | product => 8
  | sum => 9

/-- The level of the grammar that a task is on, the loosest one last. -/
def Task.rank : Task → Nat
  | read level => level.rank
  | signs _ => 4
  | arguments _ _ => 10
  | operations _ _ _ | conversions _ => 0

/-- The tokens that are left, and then how loose the function is. -/
def weight (ts : List Token) (task : Task) (p : Nat) : Nat := 11 * (ts.length - p) + task.rank

/-- A task may call a tighter one where it stands. -/
theorem weight_lt_of_tighter {callee caller : Task} (tighter : callee.rank < caller.rank) :
    weight ts callee p < weight ts caller p :=
  Nat.add_lt_add_left tighter _

/-- A task may call any task further on in the line. -/
theorem weight_lt_of_later {callee caller : Task} (later : p < q) (inside : q ≤ ts.length) :
    weight ts callee q < weight ts caller p := by
  have loosest : callee.rank ≤ 10 := by
    rcases callee with level | _ | _ | _ | _ <;> simp only [Task.rank] <;> try decide
    cases level <;> decide
  unfold weight
  omega

/-! ## Expected answers -/

/-- The answer of a call: that of a reading whose depth and rounds are enough for the tokens that are left.
What a loop has so far is the value of an expression `left` or `operand`, and a sign or the values of
arguments stand for themselves. -/
inductive Expected (ts : List Token) (scope : Scope) :
    Task → Nat → Except EvalError (Complex × Nat) → Prop where
  | read {level : Level} {p depth : Nat} {tokens : List Token} (position : At ts p tokens)
    (enough : tokens.length ≤ depth) :
    Expected ts scope (.read level) p (answerOf ts scope (level.reader (readWithin depth) tokens))
  | operations {op? : Token → Option BinaryOp} {operand : Level} {left : Expr} {z : Complex}
    {p depth limit : Nat} {tokens : List Token} (position : At ts p tokens)
    (enough : tokens.length ≤ depth) (rounds : tokens.length ≤ limit)
    (value : left.eval scope = .ok z) :
    Expected ts scope (.operations op? operand z) p
      (answerOf ts scope (readChain op? (operand.reader (readWithin depth)) limit left tokens))
  | conversions {operand : Expr} {z : Complex} {p : Nat} {tokens : List Token}
    (position : At ts p tokens) (value : operand.eval scope = .ok z) :
    Expected ts scope (.conversions z) p (answerOf ts scope (readConversions operand tokens))
  | signs (negative : Bool) {p depth : Nat} {tokens : List Token} (position : At ts p tokens)
    (enough : tokens.length ≤ depth) :
    Expected ts scope (.signs negative) p
      ((answerOf ts scope (readSigned (readOperand (readWithin depth)) tokens)).map
        (signed negative))
  | arguments {function : String} {values : List Complex} {p depth limit : Nat} {tokens : List Token}
    (position : At ts p tokens) (enough : tokens.length ≤ depth) (rounds : tokens.length ≤ limit) :
    Expected ts scope (.arguments function values) p
      (callAnswer ts scope function values (readArguments (readWithin (depth + 1)) limit tokens))

/-- What is expected is expected inside the line. -/
theorem Expected.inside {task : Task} (h : Expected ts scope task p r) : p ≤ ts.length := by
  cases h with
  | read position | operations position | conversions position | signs _ position
  | arguments position => exact position.le

/-- An answer that is there goes on. -/
theorem settled_ok_bind {α β : Type} (a : α) (k : α → Outcome β) : settled (.ok a) >>= k = k a :=
  rfl

/-- A change of the value goes through an answer. -/
theorem settled_map {α β : Type} (answer : Except EvalError α) (f : α → β) :
    settled (answer.map f) = settled answer >>= fun a => pure (f a) := by
  cases answer <;> rfl

/-- Computations that only answer go through as well. -/
theorem settled_bind_pure {α β : Type} (answer : Except EvalError α) (f : α → β) :
    (settled answer >>= fun a => pure (f a)) = settled (answer >>= fun a => pure (f a)) := by
  cases answer <;> rfl

/-- One reading after another: what a call answers is what the whole comes to, if the first reading is
broken or its expression fails, and else this is up to what follows. -/
theorem bind_settled {reading : Reading Expr} {k : Complex × Nat → Outcome (Complex × Nat)}
    (broken : ∀ b, reading = .error b → r = answerOf ts scope (.error b))
    (failed : ∀ e rest x, reading = .ok (e, rest) → e.eval scope = .error x → r = .error x)
    (goes : ∀ e rest z, reading = .ok (e, rest) → e.eval scope = .ok z →
      k (z, ts.length - rest.length) = settled r) :
    settled (answerOf ts scope reading) >>= k = settled r := by
  cases reading with
  | error b =>
    obtain ⟨x, failure⟩ := exists_answerOf_error ts scope b
    rw [broken b rfl, failure]
    rfl
  | ok read =>
    obtain ⟨e, rest⟩ := read
    cases value : e.eval scope with
    | error x =>
      rw [failed e rest x rfl value, answerOf_ok_of_error value]
      rfl
    | ok z =>
      rw [answerOf_ok_of_ok value]
      exact goes e rest z rfl value

/-! ## Functions whose calls agree -/

section Calls

variable {calls : Task → Nat → Outcome (Complex × Nat)} {bound : Nat} {operand : Level}
  {op? : Token → Option BinaryOp}
  (known : ∀ {task q r}, Expected ts scope task q r → weight ts task q < bound →
    calls task q = settled r)

include known

/-- The operand behind an operator is read as its level is. -/
theorem joined_eq (h : At ts p tokens) (enough : tokens.length ≤ depth)
    (lighter : weight ts (.read operand) p < bound) :
    joined calls op? operand p =
      settled (answerOf ts scope (readLevel op? (operand.reader (readWithin depth)) tokens)) := by
  rw [joined, known (.read h enough) lighter]
  refine bind_settled (fun b read => ?_) (fun e rest x read failed => ?_)
    fun e rest z read value => ?_
  · rw [readLevel, read]
  · rw [readLevel, read]
    exact answerOf_readChain_of_error failed
  · obtain ⟨q, behind, later⟩ := Level.advances _ h read
    have fewer := (h.length_lt behind later).le
    rw [readLevel, read, behind.position]
    exact known (.operations behind (fewer.trans enough) le_rfl value)
      ((weight_lt_of_later later behind.le).trans lighter)

/-- The operations of a level are the chain that is read at this level. -/
theorem operations_eq (h : At ts p tokens) (enough : tokens.length ≤ depth)
    (rounds : tokens.length ≤ limit) (value : left.eval scope = .ok z)
    (lighter : weight ts (.operations op? operand z) p ≤ bound) :
    operations ts calls op? operand z p =
      settled (answerOf ts scope
        (readChain op? (operand.reader (readWithin depth)) limit left tokens)) := by
  rw [operations, h.head?]
  cases found : tokens.head?.bind op? with
  | none =>
    rw [readChain_end (Option.bind_eq_none_iff.1 found), answerOf_ok_of_ok value, h.position]
    rfl
  | some op =>
    obtain ⟨token, first, operation⟩ := Option.bind_eq_some_iff.1 found
    obtain ⟨behind, rfl⟩ := List.head?_eq_some_iff.1 first
    obtain ⟨limit, rfl⟩ := Nat.exists_eq_succ_of_ne_zero (by grind : limit ≠ 0)
    rw [List.length_cons] at enough rounds
    rw [readChain]
    simp only [operation]
    rw [known (.read h.next (Nat.le_of_succ_le enough))
      ((weight_lt_of_later p.lt_succ_self h.next.le).trans_le lighter)]
    refine bind_settled (fun b read => ?_) (fun e rest x read failed => ?_)
      fun e rest w read operand_value => ?_
    · rw [read]
      exact answerOf_after_of_ok _ value
    · rw [read]
      exact answerOf_readChain_of_error (by rw [Expr.eval, value, failed]; rfl)
    · obtain ⟨q, after, later⟩ := Level.advances _ h.next read
      have fewer := (h.next.length_lt after later).le
      have joined : (Expr.binary op left e).eval scope = (do op.apply z w) := by
        rw [Expr.eval, value, operand_value]
        rfl
      rw [read, after.position]
      dsimp only
      -- The operation is carried out here, before anything behind it is looked at.
      rw [← joined]
      cases combined : (Expr.binary op left e).eval scope with
      | error x =>
        rw [answerOf_readChain_of_error combined]
        rfl
      | ok v =>
        exact known (.operations after (by omega) (by omega) combined)
          ((weight_lt_of_later (by omega) after.le).trans_le lighter)

/-- A converted operand is read as such. -/
theorem converted_eq (h : At ts p tokens) (enough : tokens.length ≤ depth)
    (lighter : weight ts (.read .converted) p ≤ bound) :
    converted calls p = settled (answerOf ts scope (readConverted (readWithin depth) tokens)) := by
  rw [converted, known (.read h enough) ((weight_lt_of_tighter (by decide)).trans_le lighter)]
  refine bind_settled (fun b read => ?_) (fun e rest x read failed => ?_)
    fun e rest z read value => ?_
  · rw [Level.reader] at read
    rw [readConverted, read]
  · rw [Level.reader] at read
    rw [readConverted, read]
    exact answerOf_readConversions_of_error failed
  · obtain ⟨q, behind, later⟩ := Level.advances _ h read
    rw [Level.reader] at read
    rw [readConverted, read, behind.position]
    exact known (.conversions behind value)
      ((weight_lt_of_later later behind.le).trans_le lighter)

/-- The conversions behind an operand are those that are read there. -/
theorem conversions_eq (h : At ts p tokens) (value : e.eval scope = .ok z)
    (lighter : weight ts (.conversions z) p ≤ bound) :
    conversions ts calls z p = settled (answerOf ts scope (readConversions e tokens)) := by
  rw [conversions, h.head?, h.getElem? 1, h.getElem? 2, h.getElem? 3, h.getElem? 4]
  fun_cases readConversions e tokens with
  | case1 e source target rest =>
    have behind : At ts (p + 5) rest :=
      (show At ts p ([.openSquare, .unit source, .arrow, .unit target, .closeSquare] ++ rest)
        from h).append
    have converted : (Expr.convert e source target).eval scope = convertUnit source target z := by
      rw [Expr.eval, value]
      rfl
    change settled (convertUnit source target z) >>= (fun z => calls (.conversions z) (p + 5)) = _
    rw [← converted]
    cases result : (Expr.convert e source target).eval scope with
    | error x =>
      rw [answerOf_readConversions_of_error result]
      rfl
    | ok w =>
      exact known (.conversions behind result)
        ((weight_lt_of_later (by omega) behind.le).trans_le lighter)
  | case2 e rest other =>
    have broken : answerOf ts scope (.error ⟨[e], .conversionForm⟩) =
        .error (.grammar .conversionForm) :=
      answerOf_after_of_ok ⟨[], .conversionForm⟩ value
    rw [broken]
    dsimp only [List.head?_cons]
    split
    · rename_i source target first second third fourth
      simp only [List.getElem?_cons_succ] at first second third fourth
      refine absurd ?_ (other source target (rest.drop 4))
      rcases rest with _ | ⟨a, _ | ⟨b, _ | ⟨c, _ | ⟨d, rest⟩⟩⟩⟩ <;> simp_all
    · rfl
  | case3 =>
    rename_i other
    rw [answerOf_ok_of_ok value, h.position]
    split
    · rename_i first
      obtain ⟨tail, rfl⟩ := List.head?_eq_some_iff.1 first
      exact absurd rfl (other tail)
    · rfl

/-- The signs in front of an operand are counted as they are read. -/
theorem signs_eq {negative : Bool} (h : At ts p tokens) (enough : tokens.length ≤ depth)
    (lighter : weight ts (.signs negative) p ≤ bound) :
    signs ts calls negative p =
      settled ((answerOf ts scope (readSigned (readOperand (readWithin depth)) tokens)).map
        (signed negative)) := by
  have behind_sign (minus : Bool) (answer : Except EvalError (Complex × Nat)) :
      (answer.map (signed minus)).map (signed negative) =
        answer.map (signed (xor minus negative)) := by
    cases answer with
    | error x => rfl
    | ok read => exact congrArg Except.ok (signed_signed negative minus read)
  rw [signs, h.head?]
  fun_cases readSigned (readOperand (readWithin depth)) tokens with
  | case1 rest =>
    rw [answerOf_signed true, behind_sign, Bool.true_xor]
    exact known (.signs _ h.next (Nat.le_of_succ_le enough))
      ((weight_lt_of_later p.lt_succ_self h.next.le).trans_le lighter)
  | case2 rest =>
    rw [answerOf_signed false, behind_sign, Bool.false_xor]
    exact known (.signs _ h.next (Nat.le_of_succ_le enough))
      ((weight_lt_of_later p.lt_succ_self h.next.le).trans_le lighter)
  | case3 =>
    rename_i no_minus no_plus
    split
    · rename_i first
      obtain ⟨tail, rfl⟩ := List.head?_eq_some_iff.1 first
      exact absurd rfl (no_minus tail)
    · rename_i first
      obtain ⟨tail, rfl⟩ := List.head?_eq_some_iff.1 first
      exact absurd rfl (no_plus tail)
    · rw [known (.read h enough) ((weight_lt_of_tighter (by simp [Task.rank, Level.rank])).trans_le
          lighter), settled_map]
      rfl

/-- An operand is in brackets, or it is a call or an atom. -/
theorem bracketed_eq (h : At ts p tokens) (enough : tokens.length ≤ depth)
    (lighter : weight ts (.read .bracketed) p ≤ bound) :
    bracketed ts calls p = settled (answerOf ts scope (readOperand (readWithin depth) tokens)) := by
  rw [bracketed, h.head?]
  split
  · rename_i first
    obtain ⟨behind, rfl⟩ := List.head?_eq_some_iff.1 first
    -- The bracket is a token less, so a reading that is one less deep is enough for its inside.
    obtain ⟨depth, rfl⟩ := Nat.exists_eq_succ_of_ne_zero (by grind : depth ≠ 0)
    rw [known (.read h.next (Nat.le_of_succ_le_succ enough))
      ((weight_lt_of_later p.lt_succ_self h.next.le).trans_le lighter), readOperand, readGroup,
      readWithin]
    change settled (answerOf ts scope (readSum (readWithin depth) behind)) >>= _ = _
    refine bind_settled (fun b read => ?_) (fun e rest x read failed => ?_)
      fun e rest z read value => ?_
    · rw [read]
    · rw [read]
      rcases rest with _ | ⟨token, rest⟩
      · exact answerOf_after_of_error ⟨[], .noClosingBracket⟩ failed
      · cases token with
        | closeBracket => exact answerOf_ok_of_error (by rw [Expr.eval, failed])
        | _ => exact answerOf_after_of_error ⟨[], .noClosingBracket⟩ failed
    · obtain ⟨q, behind, later⟩ := Level.advances .sum h.next read
      rw [read, behind.position]
      dsimp only
      rw [behind.head?]
      rcases rest with _ | ⟨token, rest⟩
      · exact (congrArg settled (answerOf_after_of_ok ⟨[], .noClosingBracket⟩ value)).symm
      · cases token with
        | closeBracket =>
          have closed : answerOf ts scope (.ok (.group e, rest)) = .ok (z, q + 1) := by
            rw [answerOf_ok_of_ok (by rw [Expr.eval, value]), behind.next.position]
          rw [List.head?_cons, if_pos rfl]
          exact (congrArg settled closed).symm
        | _ =>
          exact (congrArg settled
            (answerOf_after_of_ok ⟨[], .noClosingBracket⟩ value)).symm
  · rename_i other
    rw [known (.read h enough) ((weight_lt_of_tighter (by decide)).trans_le lighter),
      readOperand_eq_readCalled]
    · rfl
    · rintro rest rfl
      exact other rfl

/-- A call is read with its arguments, and otherwise an atom is. -/
theorem called_eq (h : At ts p tokens) (enough : tokens.length ≤ depth)
    (lighter : weight ts (.read .call) p ≤ bound) :
    called ts calls p = settled (answerOf ts scope (readCalled (readWithin depth) tokens)) := by
  rw [called, h.head?, h.getElem? 1]
  fun_cases readCalled (readWithin depth) tokens with
  | case1 function rest =>
    obtain ⟨depth, rfl⟩ := Nat.exists_eq_succ_of_ne_zero (by grind : depth ≠ 0)
    simp only [List.length_cons] at enough
    rw [answerOf_readCall]
    exact known (.arguments h.next.next (by omega) le_rfl)
      ((weight_lt_of_later (by omega) h.next.next.le).trans_le lighter)
  | case2 =>
    rename_i other
    split
    · rename_i function first second
      obtain ⟨rest, rfl⟩ := exists_of_first_two first second
      exact absurd rfl (other function rest)
    · exact known (.read h enough) ((weight_lt_of_tighter (by decide)).trans_le lighter)

/-- An atom is a number or a name. -/
theorem atom_eq (h : At ts p tokens) (enough : tokens.length ≤ depth)
    (lighter : weight ts (.read .atom) p ≤ bound) :
    atom ts scope calls p = settled (answerOf ts scope (readAtom tokens)) := by
  rw [atom, h.head?]
  fun_cases readAtom tokens with
  | case1 text rest =>
    have named : (Expr.name text).eval scope = scope.nameValue text := by rw [Expr.eval]
    rw [answerOf, named, h.next.position, List.head?_cons]
    dsimp only
    cases scope.nameValue text <;> rfl
  | case2 =>
    rename_i other
    split
    · rename_i name first
      obtain ⟨rest, rfl⟩ := List.head?_eq_some_iff.1 first
      exact absurd rfl (other name rest)
    · exact known (.read h enough) ((weight_lt_of_tighter (by decide)).trans_le lighter)

/-- The arguments are read one after the other, and their values are handed on. -/
theorem arguments_eq {function : String} {values : List Complex} (h : At ts p tokens)
    (enough : tokens.length ≤ depth) (rounds : tokens.length ≤ limit)
    (lighter : weight ts (.arguments function values) p ≤ bound) :
    arguments ts scope calls function values p =
      settled (callAnswer ts scope function values
        (readArguments (readWithin (depth + 1)) limit tokens)) := by
  rw [arguments, known (.read h enough)
    ((weight_lt_of_tighter (by simp [Task.rank, Level.rank])).trans_le lighter)]
  cases limit with
  | zero =>
    obtain rfl := List.eq_nil_of_length_eq_zero (Nat.le_zero.1 rounds)
    exact bind_settled (fun b read => congrArg (answerOf ts scope) read) nofun nofun
  | succ limit =>
    refine bind_settled (fun b read => ?_) (fun e rest x read failed => ?_)
      fun e rest z read value => ?_
    · change readWithin (depth + 1) tokens = .error b at read
      rw [readArguments, read]
      rfl
    · exact callAnswer_of_error read failed
    · obtain ⟨q, behind, later⟩ := Level.advances .sum h read
      have fewer := h.length_lt behind later
      change readWithin (depth + 1) tokens = .ok (e, rest) at read
      rw [behind.position]
      dsimp only
      rw [behind.head?]
      by_cases more : ∃ others, rest = .semicolon :: others
      · obtain ⟨others, rfl⟩ := more
        rw [List.length_cons] at fewer
        rw [callAnswer_cons read, value]
        exact known (.arguments behind.next (by omega) (by omega))
          ((weight_lt_of_later (by omega) behind.next.le).trans_le lighter)
      · rw [callAnswer_last read (fun others same => more ⟨others, same⟩)]
        have evaluated : (Arguments.last e).eval scope = .ok [z] := by
          rw [Arguments.eval, value]
          rfl
        rw [callAnswer, evaluated]
        rcases rest with _ | ⟨token, others⟩
        · rfl
        · cases token with
          | semicolon => exact absurd ⟨others, rfl⟩ more
          | closeBracket =>
            rw [List.head?_cons]
            dsimp only
            rw [behind.next.position]
            rw [settled_bind_pure, bind_assoc]
            rfl
          | _ => rfl

end Calls

/-! ## Numbers -/

/-- A token that is there is taken. -/
theorem accept_cons {token : Token} (h : At ts p (token :: rest)) :
    accept ts token p = (true, p + 1) := by
  rw [accept, h.head?, List.head?_cons, if_pos rfl]

/-- Another token is left where it is. -/
theorem accept_of_ne {token : Token} (h : At ts p tokens) (other : ∀ rest, tokens ≠ token :: rest) :
    accept ts token p = (false, p) := by
  rw [accept, h.head?, if_neg]
  intro first
  obtain ⟨rest, rfl⟩ := List.head?_eq_some_iff.1 first
  exact other rest rfl

/-- A numeral is taken with its value. -/
theorem numeral_cons {text : String} (h : At ts p (.number text :: rest)) :
    numeral ts p =
      settled (((numeralValue text).map fun x => some (text, x)).map fun n => (n, p + 1)) := by
  rw [numeral, h.head?, List.head?_cons]
  dsimp only
  cases numeralValue text <;> rfl

/-- Another token is no numeral, and is left where it is. -/
theorem numeral_of_ne (h : At ts p tokens) (other : ∀ text rest, tokens ≠ .number text :: rest) :
    numeral ts p = settled ((Except.ok none).map fun n => (n, p)) := by
  rw [numeral, h.head?]
  split
  · rename_i text first
    obtain ⟨rest, rfl⟩ := List.head?_eq_some_iff.1 first
    exact absurd rfl (other text rest)
  · rfl

/-- A number in its three parts. -/
theorem number_of_parts {leading trailing : Bool} {p₁ p₂ p₃ : Nat}
    {read : Except EvalError (Option (String × Decimal))}
    (first : accept ts .imaginaryOne p = (leading, p₁))
    (middle : numeral ts p₁ = settled (read.map fun n => (n, p₂)))
    (last : accept ts .imaginaryOne p₂ = (trailing, p₃)) :
    number ts p =
      settled ((read >>= fun n => literalValue n leading trailing).map fun z => (z, p₃)) := by
  rw [number, first]
  dsimp only
  rw [middle]
  cases read with
  | error x => rfl
  | ok n =>
    rw [Except.map, settled_ok_bind]
    dsimp only
    rw [last, settled_map]
    rfl

/-- A number with its marker is the literal that is read. -/
theorem number_eq (h : At ts p tokens) :
    number ts p = settled (answerOf ts scope (readLiteral tokens)) := by
  fun_cases readLiteral tokens with
  | case1 text rest =>
    rw [number_of_parts (accept_cons h) (numeral_cons h.next) (accept_cons h.next.next)]
    have after : (⟨[.literal (.numeral text)], .invalidNumber text⟩ : Broken).eval scope =
        numeralValue text >>= fun _ => throw (.grammar (.invalidNumber text)) := by
      simp only [Broken.eval, List.mapM_cons, List.mapM_nil, Expr.eval, Literal.value, bind_assoc,
        pure_bind]
    rw [answerOf, after]
    cases numeralValue text <;> rfl
  | case2 text rest other =>
    rw [number_of_parts (accept_cons h) (numeral_cons h.next) (accept_of_ne h.next.next other)]
    rw [answerOf, Expr.eval, Literal.value, h.next.next.position]
    cases numeralValue text <;> rfl
  | case3 rest =>
    rw [number_of_parts (accept_cons h) (numeral_of_ne h.next (by simp)) (accept_cons h.next)]
    rfl
  | case4 rest =>
    rename_i numeral marker
    rw [number_of_parts (accept_cons h) (numeral_of_ne h.next numeral) (accept_of_ne h.next marker)]
    rw [answerOf, Expr.eval, Literal.value, h.next.position]
    rfl
  | case5 text rest =>
    rw [number_of_parts (accept_of_ne h (by simp)) (numeral_cons h) (accept_cons h.next)]
    rw [answerOf, Expr.eval, Literal.value, h.next.next.position]
    cases numeralValue text <;> rfl
  | case6 text rest =>
    rename_i other
    rw [number_of_parts (accept_of_ne h (by simp)) (numeral_cons h) (accept_of_ne h.next other)]
    rw [answerOf, Expr.eval, Literal.value, h.next.position]
    cases numeralValue text <;> rfl
  | case7 =>
    rename_i marker _ numeral
    rw [number_of_parts (accept_of_ne h marker) (numeral_of_ne h numeral) (accept_of_ne h marker)]
    rfl

/-! ## Every call -/

/-- A function that makes its calls agrees if those calls do. -/
theorem follow_eq {calls : Task → Nat → Outcome (Complex × Nat)} {bound : Nat} {task : Task}
    (known : ∀ {task q r}, Expected ts scope task q r → weight ts task q < bound →
      calls task q = settled r)
    (h : Expected ts scope task p r) (lighter : weight ts task p ≤ bound) :
    follow ts scope calls task p = settled r := by
  cases h with
  | @read level _ _ tokens position enough =>
    cases level with
    | sum | product | power =>
      exact joined_eq known position enough ((weight_lt_of_tighter (by decide)).trans_le lighter)
    | converted => exact converted_eq known position enough lighter
    | signed =>
      have answer := known (.signs false position enough)
        ((weight_lt_of_tighter (by simp [Task.rank, Level.rank])).trans_le lighter)
      rw [follow, answer]
      change settled _ = settled (answerOf ts scope (readSigned _ tokens))
      cases answerOf ts scope (readSigned _ tokens) <;> rfl
    | bracketed => exact bracketed_eq known position enough lighter
    | call => exact called_eq known position enough lighter
    | atom => exact atom_eq known position enough lighter
    | number => exact number_eq position
  | operations position enough rounds value =>
    exact operations_eq known position enough rounds value lighter
  | conversions position value => exact conversions_eq known position value lighter
  | signs _ position enough => exact signs_eq known position enough lighter
  | arguments position enough rounds =>
    exact arguments_eq known position enough rounds lighter

/-- Every call comes to its answer, no deeper than its weight tells, and with no call behind the end. -/
theorem descend_eq {task : Task} (h : Expected ts scope task p r) (deep : weight ts task p < depth) :
    descend ts scope depth task p = settled r := by
  induction depth generalizing task p r with
  | zero => exact absurd deep (Nat.not_lt_zero _)
  | succ depth ih =>
    rw [descend, if_pos h.inside]
    exact follow_eq (fun h lighter => ih h lighter) h (Nat.le_of_lt_succ deep)

end Calculator.Descent
