import Calculator.Expression.OfTokens
import Calculator.Proofs.Grammar.Derivation

/-!
# Reading by the grammar

What the readers of the levels read has a derivation (`Sound`), and whatever has a
derivation is read (`Derivation.read`). The second needs to say what may come after a
phrase: a reader goes on as long as the next token can extend its phrase, so the tokens
after it have to begin with one that ends it.
-/

namespace Calculator.Grammar

open Calculator.Expr

/-! ## What is read has a derivation -/

/-- Whatever the reader reads is derived as a phrase of this kind by the tokens it takes. -/
def Sound (read : List Token → Reading Expr) (phrase : Phrase) : Prop :=
  ∀ {tokens e rest}, read tokens = .ok (e, rest) →
    ∃ t : Derivation phrase, t.expr = e ∧ t.tokens ++ rest = tokens

/-- The rules of a level of binary operations: each operation has one. -/
def Joins (op? : Token → Option BinaryOp) (phrase tighter : Phrase) : Prop :=
  ∀ {token op}, op? token = some op → ∀ (l : Derivation phrase) (r : Derivation tighter),
    ∃ t : Derivation phrase, t.expr = .binary op l.expr r.expr ∧
      t.tokens = l.tokens ++ token :: r.tokens

/-- Sums are joined from products. -/
theorem joins_sum : Joins sumOp? .sum .product := by
  intro token op found l r
  cases token <;> simp only [sumOp?, reduceCtorEq, Option.some.injEq] at found <;> subst found
  · exact ⟨.add l r, rfl, rfl⟩
  · exact ⟨.sub l r, rfl, rfl⟩

/-- Products are joined from powers. -/
theorem joins_product : Joins productOp? .product .power := by
  intro token op found l r
  cases token <;> simp only [productOp?, reduceCtorEq, Option.some.injEq] at found <;> subst found
  · exact ⟨.mul l r, rfl, rfl⟩
  · exact ⟨.div l r, rfl, rfl⟩

/-- Powers are joined from operands with their conversions. -/
theorem joins_power : Joins powerOp? .power .converted := by
  intro token op found l r
  cases token <;> simp only [powerOp?, reduceCtorEq, Option.some.injEq] at found
  subst found
  exact ⟨.pow l r, rfl, rfl⟩

/-- The invariant of the loop over the operands of a level is that the tokens taken so far derive
the phrase on the left. -/
theorem readChain_sound {op? : Token → Option BinaryOp} {operand : List Token → Reading Expr}
    {phrase tighter : Phrase} (joins : Joins op? phrase tighter) (sound : Sound operand tighter)
    {limit : Nat} {left : Derivation phrase} {tokens rest : List Token} {e : Expr}
    (h : readChain op? operand limit left.expr tokens = .ok (e, rest)) :
    ∃ t : Derivation phrase, t.expr = e ∧ t.tokens ++ rest = left.tokens ++ tokens := by
  induction limit generalizing left tokens with
  | zero =>
    cases h
    exact ⟨left, rfl, rfl⟩
  | succ limit ih =>
    cases tokens with
    | nil =>
      cases h
      exact ⟨left, rfl, rfl⟩
    | cons token tokens =>
      rw [readChain] at h
      cases found : op? token with
      | none =>
        simp only [found, Except.ok.injEq, Prod.mk.injEq] at h
        exact ⟨left, h.1, by rw [h.2]⟩
      | some op =>
        simp only [found] at h
        split at h
        · cases h
        · rename_i right after read
          obtain ⟨r, rfl, taken⟩ := sound read
          obtain ⟨joined, expr, spelled⟩ := joins found left r
          obtain ⟨t, same, all⟩ := ih (expr ▸ h)
          refine ⟨t, same, ?_⟩
          rw [all, spelled, ← taken]
          simp

/-- A level reads what the grammar derives where its operands do. -/
theorem readLevel_sound {op? : Token → Option BinaryOp} {operand : List Token → Reading Expr}
    {phrase tighter : Phrase} (joins : Joins op? phrase tighter)
    (pass : ∀ t : Derivation tighter, ∃ u : Derivation phrase, u.expr = t.expr ∧
      u.tokens = t.tokens)
    (sound : Sound operand tighter) : Sound (readLevel op? operand) phrase := by
  intro tokens e rest h
  rw [readLevel] at h
  split at h
  · cases h
  · rename_i left after read
    obtain ⟨l, rfl, taken⟩ := sound read
    obtain ⟨l', expr, spelled⟩ := pass l
    obtain ⟨t, same, all⟩ := readChain_sound joins sound (expr ▸ h)
    exact ⟨t, same, by rw [all, spelled, taken]⟩

/-- A number is an atom. -/
theorem readLiteral_sound : Sound readLiteral .atom := by
  intro tokens e rest h
  unfold readLiteral at h
  split at h <;> cases h
  · rename_i text _
    exact ⟨.number (.imaginary text true), rfl, rfl⟩
  · exact ⟨.number .marker, rfl, rfl⟩
  · rename_i text
    exact ⟨.number (.imaginary text false), rfl, rfl⟩
  · rename_i text _
    exact ⟨.number (.numeral text), rfl, rfl⟩

/-- Arguments are derived as they are read, commas included. -/
theorem readArguments_sound {inner : List Token → Reading Expr} (sound : Sound inner .sum)
    {limit : Nat} {tokens rest : List Token} {arguments : Arguments}
    (h : readArguments inner limit tokens = .ok (arguments, rest)) :
    ∃ ts : ArgumentList, ts.exprs = arguments ∧ ts.tokens ++ rest = tokens := by
  induction limit generalizing tokens arguments with
  | zero => cases h
  | succ limit ih =>
    rw [readArguments] at h
    split at h
    · cases h
    · rename_i argument after read
      obtain ⟨t, rfl, taken⟩ := sound read
      split at h
      · cases h
      · rename_i others after' readRest
        cases h
        obtain ⟨ts, rfl, takenRest⟩ := ih readRest
        exact ⟨.cons t ts, rfl, by simp [ArgumentList.tokens, ← taken, ← takenRest]⟩
    · rename_i argument after _ read
      cases h
      obtain ⟨t, rfl, taken⟩ := sound read
      exact ⟨.last t, rfl, taken⟩

/-- An expression in brackets is derived with its brackets. -/
theorem readGroup_sound {inner : List Token → Reading Expr} (sound : Sound inner .sum)
    {tokens rest : List Token} {e : Expr} (h : readGroup inner tokens = .ok (e, rest)) :
    ∃ t : Derivation .bracketed, t.expr = e ∧ t.tokens ++ rest = .openBracket :: tokens := by
  rw [readGroup] at h
  split at h
  · cases h
  · rename_i e' after read
    cases h
    obtain ⟨t, rfl, taken⟩ := sound read
    exact ⟨.group t, rfl, by simp [Derivation.tokens, ← taken]⟩
  · cases h

/-- A call is derived with the name of its function and its brackets. -/
theorem readCall_sound {inner : List Token → Reading Expr} (sound : Sound inner .sum)
    {function : String} {tokens rest : List Token} {e : Expr}
    (h : readCall inner function tokens = .ok (e, rest)) :
    ∃ t : Derivation .call, t.expr = e ∧
      t.tokens ++ rest = .identifier function :: .openBracket :: tokens := by
  rw [readCall] at h
  split at h
  · cases h
  · rename_i arguments after read
    cases h
    obtain ⟨ts, rfl, taken⟩ := readArguments_sound sound read
    exact ⟨.call function ts, rfl, by simp [Derivation.tokens, ← taken]⟩
  · cases h

/-- An operand is an atom, a call or a group. -/
theorem readOperand_sound {inner : List Token → Reading Expr} (sound : Sound inner .sum) :
    Sound (readOperand inner) .bracketed := by
  intro tokens e rest h
  unfold readOperand at h
  split at h
  · exact readGroup_sound sound h
  · obtain ⟨t, same, taken⟩ := readCall_sound sound h
    exact ⟨.ofCall t, same, taken⟩
  · rename_i text _ _
    cases h
    exact ⟨.ofCall (.ofAtom (.name text)), rfl, rfl⟩
  · obtain ⟨t, same, taken⟩ := readLiteral_sound h
    exact ⟨.ofCall (.ofAtom t), same, taken⟩

/-- A signed operand is derived with its signs. -/
theorem readSigned_sound {operand : List Token → Reading Expr} (sound : Sound operand .bracketed) :
    Sound (readSigned operand) .signed := by
  intro tokens e rest h
  fun_induction readSigned operand tokens generalizing e with
  | case1 tokens ih =>
    obtain ⟨⟨operand, after⟩, read, same⟩ := map_eq_ok.1 h
    cases same
    obtain ⟨t, rfl, taken⟩ := ih read
    exact ⟨.minus t, rfl, congrArg _ taken⟩
  | case2 tokens ih =>
    obtain ⟨⟨operand, after⟩, read, same⟩ := map_eq_ok.1 h
    cases same
    obtain ⟨t, rfl, taken⟩ := ih read
    exact ⟨.plus t, rfl, congrArg _ taken⟩
  | case3 tokens =>
    obtain ⟨t, same, taken⟩ := sound h
    exact ⟨.ofBracketed t, same, taken⟩

/-- Each conversion behind an operand makes a longer phrase of it. -/
theorem readConversions_sound (operand : Derivation .converted) {tokens rest : List Token}
    {e : Expr} (h : readConversions operand.expr tokens = .ok (e, rest)) :
    ∃ t : Derivation .converted, t.expr = e ∧ t.tokens ++ rest = operand.tokens ++ tokens := by
  generalize start : operand.expr = first at h
  fun_induction readConversions first tokens generalizing operand with
  | case1 first source target tokens ih =>
    subst start
    obtain ⟨t, same, taken⟩ := ih (.convert operand source target) rfl h
    exact ⟨t, same, by simp [taken, Derivation.tokens]⟩
  | case2 => cases h
  | case3 =>
    cases h
    exact ⟨operand, start, rfl⟩

theorem readConverted_sound {inner : List Token → Reading Expr} (sound : Sound inner .sum) :
    Sound (readConverted inner) .converted := by
  intro tokens e rest h
  rw [readConverted] at h
  split at h
  · cases h
  · rename_i operand after read
    obtain ⟨t, rfl, taken⟩ := readSigned_sound (readOperand_sound sound) read
    obtain ⟨u, same, all⟩ := readConversions_sound (.ofSigned t) h
    exact ⟨u, same, all.trans taken⟩

theorem readPower_sound {inner : List Token → Reading Expr} (sound : Sound inner .sum) :
    Sound (readPower inner) .power :=
  readLevel_sound joins_power (fun t => ⟨.ofConverted t, rfl, rfl⟩) (readConverted_sound sound)

theorem readProduct_sound {inner : List Token → Reading Expr} (sound : Sound inner .sum) :
    Sound (readProduct inner) .product :=
  readLevel_sound joins_product (fun t => ⟨.ofPower t, rfl, rfl⟩) (readPower_sound sound)

theorem readSum_sound {inner : List Token → Reading Expr} (sound : Sound inner .sum) :
    Sound (readSum inner) .sum :=
  readLevel_sound joins_sum (fun t => ⟨.ofProduct t, rfl, rfl⟩) (readProduct_sound sound)

/-- What is read with any bound on the depth has a derivation. -/
theorem readWithin_sound (depth : Nat) : Sound (readWithin depth) .sum := by
  induction depth with
  | zero =>
    intro tokens e rest h
    cases h
  | succ depth ih => exact readSum_sound ih

/-- The reader of a kind of phrase, given the one for the inside of brackets. -/
def reader (inner : List Token → Reading Expr) : Phrase → List Token → Reading Expr
  | .sum => readSum inner
  | .product => readProduct inner
  | .power => readPower inner
  | .converted => readConverted inner
  | .signed => readSigned (readOperand inner)
  | .bracketed | .call | .atom => readOperand inner

/-! ## What has a derivation is read -/

/-- The tightest kind of phrase, by its rank, that the token can come after without being part of a
longer phrase; an operand is all that ends in front of a token of any other kind. -/
def followRank : Token → Nat
  | .closeBracket | .semicolon => 0
  | .plus | .minus => 1
  | .multiply | .divide => 2
  | .power => 3
  | .openSquare => 4
  | _ => 9

/-- The tokens begin with one that ends a phrase of the rank, or there are none. -/
def Follows (rank : Nat) (tokens : List Token) : Prop :=
  ∀ token ∈ tokens.head?, followRank token ≤ rank

/-- The end of the tokens ends a phrase of any rank. -/
theorem follows_nil (rank : Nat) : Follows rank [] := by simp [Follows]

/-- A phrase ends in front of a token that comes after phrases of its rank. -/
theorem follows_cons {rank : Nat} {token : Token} {tokens : List Token} :
    Follows rank (token :: tokens) ↔ followRank token ≤ rank := by simp [Follows]

/-- What ends a tight phrase ends a looser one. -/
theorem Follows.mono {rank other : Nat} {tokens : List Token} (h : Follows rank tokens)
    (le : rank ≤ other) : Follows other tokens :=
  fun token first => Nat.le_trans (h token first) le

/-- A level ends where no operation of it comes next. -/
theorem readChain_end {op? : Token → Option BinaryOp} {operand : List Token → Reading Expr}
    {limit : Nat} {left : Expr} {tokens : List Token} (h : ∀ token ∈ tokens.head?, op? token = none) :
    readChain op? operand limit left tokens = .ok (left, tokens) := by
  cases limit with
  | zero => rfl
  | succ limit =>
    cases tokens with
    | nil => rfl
    | cons token tokens =>
      have none : op? token = none := h token rfl
      simp only [readChain, none]

/-- A bound that is not below the number of tokens makes no difference. -/
theorem readChain_limit {op? : Token → Option BinaryOp} {operand : List Token → Reading Expr}
    {phrase : Phrase} (sound : Sound operand phrase) {limit other : Nat} {left : Expr}
    {tokens : List Token} (h : tokens.length ≤ limit) (h' : tokens.length ≤ other) :
    readChain op? operand limit left tokens = readChain op? operand other left tokens := by
  induction limit generalizing other left tokens with
  | zero =>
    obtain rfl : tokens = [] := List.eq_nil_of_length_eq_zero (Nat.le_zero.1 h)
    cases other <;> rfl
  | succ limit ih =>
    match tokens, other, h' with
    | [], 0, _ => rfl
    | [], _ + 1, _ => rfl
    | token :: tokens, other + 1, h' =>
      rw [readChain, readChain]
      split
      · rfl
      · split
        · rfl
        · rename_i right rest read
          obtain ⟨t, -, taken⟩ := sound read
          have shorter : rest.length ≤ tokens.length := by
            rw [← taken, List.length_append]
            omega
          simp only [List.length_cons] at h h'
          exact ih (by omega) (by omega)

/-- One more operand of a level. -/
theorem readChain_next {op? : Token → Option BinaryOp} {operand : List Token → Reading Expr}
    {phrase : Phrase} (sound : Sound operand phrase) {token : Token} {op : BinaryOp}
    (found : op? token = some op) {left right : Expr} {tokens rest : List Token}
    (read : operand tokens = .ok (right, rest)) :
    readChain op? operand (token :: tokens).length left (token :: tokens) =
      readChain op? operand rest.length (.binary op left right) rest := by
  obtain ⟨t, -, taken⟩ := sound read
  have shorter : rest.length ≤ tokens.length := by
    rw [← taken, List.length_append]
    omega
  simp only [List.length_cons, readChain, found, read]
  exact readChain_limit sound shorter (Nat.le_refl _)

/-- How a reader goes on when it has read a phrase of its kind. -/
def resume (inner : List Token → Reading Expr) : Phrase → Expr → List Token → Reading Expr
  | .sum, e, rest => readChain sumOp? (readProduct inner) rest.length e rest
  | .product, e, rest => readChain productOp? (readPower inner) rest.length e rest
  | .power, e, rest => readChain powerOp? (readConverted inner) rest.length e rest
  | .converted, e, rest => readConversions e rest
  | .signed, e, rest | .bracketed, e, rest | .call, e, rest | .atom, e, rest => .ok (e, rest)

/-- Nothing is added to a phrase when the next token ends it. -/
theorem resume_of_follows {inner : List Token → Reading Expr} {phrase : Phrase} {e : Expr}
    {rest : List Token} (h : Follows phrase.rank rest) :
    resume inner phrase e rest = .ok (e, rest) := by
  cases phrase with
  | sum =>
    refine readChain_end fun token first => ?_
    have := h token first
    cases token <;> simp_all [followRank, Phrase.rank, sumOp?]
  | product =>
    refine readChain_end fun token first => ?_
    have := h token first
    cases token <;> simp_all [followRank, Phrase.rank, productOp?]
  | power =>
    refine readChain_end fun token first => ?_
    have := h token first
    cases token <;> simp_all [followRank, Phrase.rank, powerOp?]
  | converted =>
    cases rest with
    | nil => rfl
    | cons token rest =>
      have := follows_cons.1 h
      cases token <;> simp_all [followRank, Phrase.rank, resume, readConversions]
  | signed | bracketed | call | atom => rfl

/-! ### Operands -/

/-- A phrase that is not signed begins with neither sign. -/
theorem readSigned_bracketed (operand : List Token → Reading Expr) (t : Derivation .bracketed)
    (rest : List Token) : readSigned operand (t.tokens ++ rest) = operand (t.tokens ++ rest) := by
  cases t with
  | group inner => simp [Derivation.tokens, readSigned]
  | ofCall t =>
    cases t with
    | call function arguments => simp [Derivation.tokens, readSigned]
    | ofAtom t =>
      cases t with
      | name text => simp [Derivation.tokens, readSigned]
      | number number =>
        cases number with
        | numeral text | marker => simp [Derivation.tokens, Literal.tokens, readSigned]
        | imaginary text markerFirst =>
          cases markerFirst <;> simp [Derivation.tokens, Literal.tokens, readSigned]

/-- A name is no call when no bracket comes next. -/
theorem readOperand_name {inner : List Token → Reading Expr} {text : String} {rest : List Token}
    (follows : Follows 8 rest) :
    readOperand inner (.identifier text :: rest) = .ok (.name text, rest) := by
  cases rest with
  | nil => rfl
  | cons token rest =>
    have := follows_cons.1 follows
    cases token <;> simp_all [followRank, readOperand]

/-- A number takes the marker beside it, and ends in front of anything else. -/
theorem readOperand_number {inner : List Token → Reading Expr} {number : Literal}
    {rest : List Token} (follows : Follows 8 rest) :
    readOperand inner (number.tokens ++ rest) = .ok (.literal number, rest) := by
  have next : ∀ token others, rest = token :: others → followRank token ≤ 8 :=
    fun token others start => follows_cons.1 (start ▸ follows)
  cases number with
  | numeral text | marker =>
    cases rest with
    | nil => rfl
    | cons token rest =>
      have := next token rest rfl
      cases token <;> simp_all [followRank, Literal.tokens, readOperand, readLiteral]
  | imaginary text markerFirst =>
    cases markerFirst with
    | false => rfl
    | true =>
      cases rest with
      | nil => rfl
      | cons token rest =>
        have := next token rest rfl
        cases token <;> simp_all [followRank, Literal.tokens, readOperand, readLiteral]

/-- No phrase is empty. -/
theorem Derivation.tokens_pos {phrase : Phrase} : ∀ t : Derivation phrase, 0 < t.tokens.length
  | .ofProduct operand | .ofPower operand | .ofConverted operand | .ofSigned operand
  | .ofBracketed operand | .ofCall operand | .ofAtom operand => operand.tokens_pos
  | .add _ _ | .sub _ _ | .mul _ _ | .div _ _ | .pow _ _ | .convert _ _ _ | .plus _ | .minus _
  | .group _ | .call _ _ | .name _ => by
    simp only [Derivation.tokens, List.length_append, List.length_cons, List.length_nil]
    omega
  | .number (.numeral _) | .number .marker | .number (.imaginary _ true)
  | .number (.imaginary _ false) => Nat.succ_pos _

/-- Arguments have at least one token. -/
theorem ArgumentList.tokens_pos (ts : ArgumentList) : 0 < ts.tokens.length := by
  cases ts with
  | last argument => exact argument.tokens_pos
  | cons argument rest =>
    simp only [ArgumentList.tokens, List.length_append, List.length_cons]
    omega

/-! ### All phrases -/

/-- A level reads an operand and goes on with the chain of its operations. -/
theorem readLevel_of_read {op? : Token → Option BinaryOp} {operand : List Token → Reading Expr}
    {tokens rest : List Token} {left : Expr} (read : operand tokens = .ok (left, rest)) :
    readLevel op? operand tokens = readChain op? operand rest.length left rest := by
  rw [readLevel, read]

mutual

/-- The reader of a kind of phrase reads every phrase of the kind, and then goes on with what comes
after it. -/
theorem Derivation.read {phrase : Phrase} :
    ∀ (t : Derivation phrase) (depth : Nat) (rest : List Token), t.tokens.length ≤ depth →
      Follows (phrase.rank + 1) rest →
      reader (readWithin depth) phrase (t.tokens ++ rest) =
        resume (readWithin depth) phrase t.expr rest
  | .ofProduct t, _, _, fits, follows
  | .ofPower t, _, _, fits, follows
  | .ofConverted t, _, _, fits, follows =>
    readLevel_of_read ((t.read _ _ fits (follows.mono (by decide))).trans (resume_of_follows follows))
  | .add l r, depth, rest, fits, follows
  | .sub l r, depth, rest, fits, follows => by
    simp only [Derivation.tokens, List.append_assoc, List.cons_append, List.length_append,
      List.length_cons] at fits ⊢
    rw [l.read _ _ (by omega) (follows_cons.2 (by decide))]
    simp only [resume, Derivation.expr]
    exact readChain_next (readProduct_sound (readWithin_sound depth)) rfl
      ((r.read _ _ (by omega) (follows.mono (by decide))).trans (resume_of_follows follows))
  | .mul l r, depth, rest, fits, follows
  | .div l r, depth, rest, fits, follows => by
    simp only [Derivation.tokens, List.append_assoc, List.cons_append, List.length_append,
      List.length_cons] at fits ⊢
    rw [l.read _ _ (by omega) (follows_cons.2 (by decide))]
    simp only [resume, Derivation.expr]
    exact readChain_next (readPower_sound (readWithin_sound depth)) rfl
      ((r.read _ _ (by omega) (follows.mono (by decide))).trans (resume_of_follows follows))
  | .pow b e, depth, rest, fits, follows => by
    simp only [Derivation.tokens, List.append_assoc, List.cons_append, List.length_append,
      List.length_cons] at fits ⊢
    rw [b.read _ _ (by omega) (follows_cons.2 (by decide))]
    simp only [resume, Derivation.expr]
    exact readChain_next (readConverted_sound (readWithin_sound depth)) rfl
      ((e.read _ _ (by omega) (follows.mono (by decide))).trans (resume_of_follows follows))
  | .ofSigned t, depth, rest, fits, follows => by
    have read := (t.read _ _ fits (follows.mono (by decide))).trans (resume_of_follows follows)
    simp only [reader, readConverted, Derivation.tokens] at read ⊢
    rw [read]
    rfl
  | .convert t source target, depth, rest, fits, follows => by
    simp only [Derivation.tokens, List.append_assoc, List.cons_append, List.nil_append,
      List.length_append, List.length_cons] at fits ⊢
    rw [t.read _ _ (by omega) (follows_cons.2 (by decide))]
    simp only [resume, readConversions, Derivation.expr]
  | .ofBracketed t, depth, rest, fits, follows =>
    (readSigned_bracketed _ t rest).trans (t.read _ _ fits (follows.mono (by decide)))
  | .plus t, depth, rest, fits, follows
  | .minus t, depth, rest, fits, follows => by
    have read := t.read _ _ (Nat.le_of_succ_le fits) follows
    simp only [reader, readSigned, Derivation.tokens, List.cons_append] at read ⊢
    rw [read]
    rfl
  | .group t, depth + 1, rest, fits, follows => by
    simp only [Derivation.tokens, List.cons_append, List.append_assoc, List.nil_append,
      List.length_cons, List.length_append] at fits ⊢
    have closed : Follows 0 (.closeBracket :: rest) := follows_cons.2 (Nat.le_refl 0)
    have read := (t.read depth _ (by omega) (closed.mono (Nat.zero_le _))).trans
      (resume_of_follows closed)
    simp only [reader] at read
    simp only [reader, readOperand, readGroup, readWithin, read]
    rfl
  | .call function ts, depth + 1, rest, fits, follows => by
    simp only [Derivation.tokens, List.cons_append, List.append_assoc, List.nil_append,
      List.length_cons, List.length_append] at fits ⊢
    have read := ts.read (ts.tokens ++ .closeBracket :: rest).length depth rest
      (by simp) (by omega)
    simp only [reader, readOperand, readCall, read]
    rfl
  | .ofCall t, _, _, fits, follows
  | .ofAtom t, _, _, fits, follows => t.read _ _ fits (follows.mono (by decide))
  | .name text, depth, rest, fits, follows => readOperand_name follows
  | .number number, depth, rest, fits, follows => readOperand_number follows

/-- The arguments of a call are read up to the bracket that closes it. -/
theorem ArgumentList.read :
    ∀ (ts : ArgumentList) (limit depth : Nat) (rest : List Token), ts.tokens.length ≤ limit →
      ts.tokens.length ≤ depth →
      readArguments (readWithin (depth + 1)) limit (ts.tokens ++ .closeBracket :: rest) =
        .ok (ts.exprs, .closeBracket :: rest)
  | .last t, 0, _, _, enough, _ => absurd t.tokens_pos (Nat.not_lt.2 enough)
  | .last t, limit + 1, depth, rest, _, fits => by
    have closed : Follows 0 (.closeBracket :: rest) := follows_cons.2 (Nat.le_refl 0)
    have read := (t.read depth _ fits (closed.mono (Nat.zero_le _))).trans
      (resume_of_follows closed)
    simp only [reader] at read
    simp only [readArguments, readWithin, ArgumentList.tokens, read]
    rfl
  | .cons t ts, 0, _, _, enough, _ =>
    absurd (ArgumentList.cons t ts).tokens_pos (Nat.not_lt.2 enough)
  | .cons t ts, limit + 1, depth, rest, enough, fits => by
    simp only [ArgumentList.tokens, List.length_append, List.length_cons, List.append_assoc,
      List.cons_append] at enough fits ⊢
    have separated : Follows 0 (.semicolon :: (ts.tokens ++ .closeBracket :: rest)) :=
      follows_cons.2 (Nat.le_refl 0)
    have read := (t.read depth _ (by omega) (separated.mono (Nat.zero_le _))).trans
      (resume_of_follows separated)
    have readRest := ts.read limit depth rest (by omega) (by omega)
    simp only [reader] at read
    simp only [readWithin] at readRest
    simp only [readArguments, readWithin, read, readRest]
    rfl

end

end Calculator.Grammar
