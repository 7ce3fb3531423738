import Calculator.Proofs.Grammar.Meaning

/-!
# Substitution

The occurrences of a variable in a line are replaced by the tokens of an expression in brackets. The
tokens that result derive a line again: a variable stands where brackets may stand, and no name is
in front of it that would make the brackets those of a call. The value is that of the line in a
scope where the variable has the value of the expression.
-/

namespace Calculator

/-! ## Tokens -/

/-- A name in front of these tokens is neither called nor assigned to. -/
def standsAlone : List Token → Bool
  | .openBracket :: _ => false
  | .assign _ :: _ => false
  | _ => true

/-- The token is a name of the last result. -/
def Token.namesResult : Token → Bool
  | .identifier name => Text.lowercase name == "res" || Text.lowercase name == "result"
  | _ => false

/-- The tokens with every occurrence of the variable under `key` replaced by `replacement` in
brackets. Names that are called or assigned to are no occurrences of a variable. -/
def Token.substitute (key : String) (replacement : List Token) : List Token → List Token
  | [] => []
  | .identifier name :: rest =>
    if Text.lowercase name = key ∧ standsAlone rest = true then
      .openBracket :: (replacement ++ .closeBracket :: substitute key replacement rest)
    else .identifier name :: substitute key replacement rest
  | token :: rest => token :: substitute key replacement rest

namespace Token

variable (key : String) (replacement : List Token)

/-- Besides brackets nothing new is put in. -/
theorem mem_substitute {token : Token} {tokens : List Token}
    (mem : token ∈ substitute key replacement tokens) :
    token = .openBracket ∨ token = .closeBracket ∨ token ∈ replacement ∨ token ∈ tokens := by
  fun_induction substitute key replacement tokens with
  | case1 => exact .inr (.inr (.inr mem))
  | case2 name rest found ih => simp only [List.mem_cons, List.mem_append] at mem ⊢; grind
  | case3 name rest other ih => simp only [List.mem_cons] at mem ⊢; grind
  | case4 token rest plain ih => simp only [List.mem_cons] at mem ⊢; grind

/-- A name whose occurrence ends at the seam sees the same tokens behind it. -/
theorem substitute_append (front : List Token) {back : List Token}
    (seam : standsAlone back = true) :
    substitute key replacement (front ++ back) =
      substitute key replacement front ++ substitute key replacement back := by
  have after (rest : List Token) : standsAlone (rest ++ back) = standsAlone rest := by
    cases rest with
    | nil => exact seam
    | cons token rest => cases token <;> rfl
  induction front with
  | nil => rfl
  | cons token rest ih =>
    cases token with
    | identifier name =>
      rw [List.cons_append, substitute, substitute, after, ih]
      split <;> simp
    | _ => simp only [List.cons_append, substitute, ih]

end Token

namespace Grammar

/-! ## Derivations -/

/-- The kind of phrase that brackets may stand in the place of. -/
abbrev Phrase.opened : Phrase → Phrase
  | .call | .atom => .bracketed
  | phrase => phrase

/-- The variable under `key` is to be replaced by `inner` in brackets. -/
structure Replacement where
  key : String
  inner : Derivation .sum

mutual

/-- The tree with brackets in the place of every occurrence of the variable. -/
def Derivation.substitute (r : Replacement) :
    {phrase : Phrase} → Derivation phrase → Derivation phrase.opened
  | _, .ofProduct operand => .ofProduct (operand.substitute r)
  | _, .add left right => .add (left.substitute r) (right.substitute r)
  | _, .sub left right => .sub (left.substitute r) (right.substitute r)
  | _, .ofPower operand => .ofPower (operand.substitute r)
  | _, .mul left right => .mul (left.substitute r) (right.substitute r)
  | _, .div left right => .div (left.substitute r) (right.substitute r)
  | _, .ofConverted operand => .ofConverted (operand.substitute r)
  | _, .pow base exponent => .pow (base.substitute r) (exponent.substitute r)
  | _, .ofSigned operand => .ofSigned (operand.substitute r)
  | _, .convert operand source target => .convert (operand.substitute r) source target
  | _, .ofBracketed operand => .ofBracketed (operand.substitute r)
  | _, .plus operand => .plus (operand.substitute r)
  | _, .minus operand => .minus (operand.substitute r)
  | _, .group operand => .group (operand.substitute r)
  | _, .ofCall operand => operand.substitute r
  | _, .call function arguments => .ofCall (.call function (arguments.substitute r))
  | _, .ofAtom operand => operand.substitute r
  | _, .name text =>
    if Text.lowercase text = r.key then .group r.inner else .ofCall (.ofAtom (.name text))
  | _, .number number => .ofCall (.ofAtom (.number number))

def ArgumentList.substitute (r : Replacement) :
    ArgumentList → ArgumentList
  | .last argument => .last (argument.substitute r)
  | .cons argument rest =>
    .cons (argument.substitute r) (rest.substitute r)

end

section

variable {r : Replacement}

mutual

/-- The tokens of the tree are those of the given tree with brackets put in. -/
theorem Derivation.tokens_substitute {phrase : Phrase} :
    ∀ t : Derivation phrase, (t.substitute r).tokens =
      Token.substitute r.key r.inner.tokens t.tokens
  | .ofProduct operand | .ofPower operand | .ofConverted operand | .ofSigned operand
  | .ofBracketed operand | .ofCall operand | .ofAtom operand => by
    simpa only [Derivation.substitute, Derivation.tokens] using operand.tokens_substitute
  | .add left right | .sub left right | .mul left right | .div left right | .pow left right => by
    simp only [Derivation.substitute, Derivation.tokens, left.tokens_substitute,
      right.tokens_substitute]
    rw [Token.substitute_append _ _ _ (by rfl)]
    rfl
  | .convert operand source target => by
    simp only [Derivation.substitute, Derivation.tokens, operand.tokens_substitute]
    rw [Token.substitute_append _ _ _ (by rfl)]
    rfl
  | .plus operand | .minus operand => by
    simp only [Derivation.substitute, Derivation.tokens, operand.tokens_substitute,
      Token.substitute]
  | .group operand => by
    simp only [Derivation.substitute, Derivation.tokens, operand.tokens_substitute,
      Token.substitute]
    rw [Token.substitute_append _ _ _ (by rfl)]
    rfl
  | .call function arguments => by
    simp only [Derivation.substitute, Derivation.tokens, arguments.tokens_substitute,
      Token.substitute, standsAlone, Bool.false_eq_true, and_false, if_false]
    rw [Token.substitute_append _ _ _ (by rfl)]
    rfl
  | .name text => by
    simp only [Derivation.substitute, Derivation.tokens, Token.substitute, standsAlone, and_true]
    split <;> rfl
  | .number (.numeral _) | .number .marker | .number (.imaginary _ true)
  | .number (.imaginary _ false) => rfl

theorem ArgumentList.tokens_substitute :
    ∀ ts : ArgumentList, (ts.substitute r).tokens =
      Token.substitute r.key r.inner.tokens ts.tokens
  | .last argument => by
    simpa only [ArgumentList.substitute, ArgumentList.tokens] using argument.tokens_substitute
  | .cons argument rest => by
    simp only [ArgumentList.substitute, ArgumentList.tokens, argument.tokens_substitute,
      rest.tokens_substitute]
    rw [Token.substitute_append _ _ _ (by rfl)]
    rfl

end

namespace Line

/-- The line with brackets in the place of every occurrence of the variable. -/
def substitute (r : Replacement) : Line → Line
  | .assign name op rest => .assign name op (rest.substitute r)
  | .ofSum body => .ofSum (body.substitute r)

theorem tokens_substitute (line : Line) :
    (line.substitute r).tokens = Token.substitute r.key r.inner.tokens line.tokens := by
  induction line with
  | assign name op rest ih =>
    simp only [substitute, tokens, ih, Token.substitute, standsAlone, Bool.false_eq_true, and_false,
      if_false]
  | ofSum body => exact body.tokens_substitute

end Line

/-! ## Values -/

/-- In the scope `after` the variable has the value that the replacement has in `scope`, and every
other variable has the value that it has in `scope`. The last results may differ. -/
structure Replacement.Binds (r : Replacement) (scope after : Scope) : Prop where
  angle : after.angleUnit = scope.angleUnit
  bound : ∀ name, Text.lowercase name = r.key → after.nameValue name = r.inner.value scope
  others : ∀ name, Text.lowercase name ≠ r.key → after.vars.get name = scope.vars.get name

variable {scope after : Scope}

/-- A name that is not the last result has the same value in scopes with the same variables. -/
theorem nameValue_congr {name : String} (noResult : (Token.identifier name).namesResult = false)
    (same : after.vars.get name = scope.vars.get name) :
    after.nameValue name = scope.nameValue name := by
  have other : ¬(Text.lowercase name = "res" ∨ Text.lowercase name = "result") := by
    simpa [Token.namesResult] using noResult
  unfold Scope.nameValue
  dsimp only
  rw [if_neg other, if_neg other, same]

mutual

/-- The tree has the value that the given tree has where the variable is bound. -/
theorem Derivation.value_substitute {phrase : Phrase} (binds : r.Binds scope after) :
    ∀ t : Derivation phrase, (∀ token ∈ t.tokens, token.namesResult = false) →
      (t.substitute r).value scope = t.value after
  | .ofProduct operand, h | .ofPower operand, h | .ofConverted operand, h | .ofSigned operand, h
  | .ofBracketed operand, h | .ofCall operand, h | .ofAtom operand, h => by
    simpa only [Derivation.substitute, Derivation.value] using operand.value_substitute binds h
  | .add left right, h | .sub left right, h | .mul left right, h | .div left right, h
  | .pow left right, h => by
    have first := left.value_substitute binds fun token mem =>
      h token (by simp [Derivation.tokens, mem])
    have second := right.value_substitute binds fun token mem =>
      h token (by simp [Derivation.tokens, mem])
    simp only [Derivation.substitute, Derivation.value, first, second]
  | .convert operand source target, h => by
    have first := operand.value_substitute binds fun token mem =>
      h token (by simp [Derivation.tokens, mem])
    simp only [Derivation.substitute, Derivation.value, first]
  | .plus operand, h | .minus operand, h | .group operand, h => by
    have first := operand.value_substitute binds fun token mem =>
      h token (by simp [Derivation.tokens, mem])
    simp only [Derivation.substitute, Derivation.value, first]
  | .call function arguments, h => by
    have values := arguments.values_substitute binds fun token mem =>
      h token (by simp [Derivation.tokens, mem])
    simp only [Derivation.substitute, Derivation.value, values, binds.angle]
  | .name text, h => by
    simp only [Derivation.substitute, Derivation.value]
    split
    · rename_i found
      exact (binds.bound text found).symm
    · rename_i other
      exact (nameValue_congr (h _ List.mem_cons_self) (binds.others text other)).symm
  | .number number, _ => by simp only [Derivation.substitute, Derivation.value]

theorem ArgumentList.values_substitute (binds : r.Binds scope after) :
    ∀ ts : ArgumentList, (∀ token ∈ ts.tokens, token.namesResult = false) →
      (ts.substitute r).values scope = ts.values after
  | .last argument, h => by
    simp only [ArgumentList.substitute, ArgumentList.values, argument.value_substitute binds h]
  | .cons argument rest, h => by
    have first := argument.value_substitute binds fun token mem =>
      h token (by simp [ArgumentList.tokens, mem])
    have others := rest.values_substitute binds fun token mem =>
      h token (by simp [ArgumentList.tokens, mem])
    simp only [ArgumentList.substitute, ArgumentList.values, first, others]

end

namespace Line

/-- The line has the value that the given line has where the variable is bound, if it does not
assign to the variable. -/
theorem value_substitute (binds : r.Binds scope after) (line : Line)
    (untouched : ∀ target ∈ line.targets, Text.lowercase target.name ≠ r.key)
    (noResult : ∀ token ∈ line.tokens, token.namesResult = false) :
    (line.substitute r).value scope = line.value after := by
  induction line with
  | ofSum body => exact body.value_substitute binds noResult
  | assign name op rest ih =>
    have old : oldValue after name op = oldValue scope name op := by
      have same := binds.others name (untouched ⟨name, op⟩ List.mem_cons_self)
      cases op <;> simp only [oldValue, same]
    have inner := ih (fun target mem => untouched target (List.mem_cons_of_mem _ mem))
      (fun token mem => noResult token (by simp [tokens, mem]))
    simp only [substitute, value, old, inner]

end Line

end

/-! ## Runs -/

/-- Tokens that run to a value where the variable is bound run to it with the variable replaced. -/
theorem run_substitute (l : Lettering) {r : Replacement} {scope after : Scope}
    (binds : r.Binds scope after) {ts : List Token} {v : Complex}
    (untouched : ∀ target ∈ (Statement.takeTargets ts).1, Text.lowercase target.name ≠ r.key)
    (noResult : ∀ token ∈ ts, token.namesResult = false)
    (h : ((Statement.ofTokens l ts).run after).1 = .ok v) :
    ((Statement.ofTokens l (Token.substitute r.key r.inner.tokens ts)).run scope).1 = .ok v := by
  obtain ⟨line, rfl⟩ := exists_line h
  rw [line.takeTargets_tokens] at untouched
  rw [run_tokens] at h
  rw [← line.tokens_substitute, run_tokens, line.value_substitute binds untouched noResult, h]

/-- A line that sets a variable has the value of its expression, and leaves it in the variable. -/
theorem run_set (l : Lettering) {scope : Scope} {x : String} (inner : Derivation .sum) :
    (Statement.ofTokens l (.identifier x :: .assign .set :: inner.tokens)).run scope =
      if isReserved x then (.error (.grammar (.invalidVariableName x)), scope.vars)
      else match inner.value scope with
        | .ok v => (.ok v, scope.vars.insert x v)
        | .error error => (.error error, scope.vars) := by
  have read := (Line.assign x .set (.ofSum inner)).ofTokens_tokens l
  simp only [Line.tokens, Line.targets, Line.body] at read
  rw [read]
  simp only [Statement.run, Statement.value, inner.eval_expr, Calculator.assign, Target.current]
  by_cases reserved : isReserved x
  · simp only [reserved, if_true]
  · simp only [reserved, if_false, Bool.false_eq_true]
    cases inner.value scope <;> rfl

/-- What is assigned by a line with a single assignment that has a value is an expression. -/
theorem exists_assigned {l : Lettering} {scope : Scope} {x : String} {op : AssignOp}
    {ts : List Token} {v : Complex} (plain : ∀ op, .assign op ∉ ts)
    (h : ((Statement.ofTokens l (.identifier x :: .assign op :: ts)).run scope).1 = .ok v) :
    ∃ inner : Derivation .sum, inner.tokens = ts := by
  obtain ⟨line, same⟩ := exists_line h
  cases line with
  | ofSum body => exact absurd (body.assign_notMem op) (by simp [show body.tokens = _ from same])
  | assign name op rest =>
    simp only [Line.tokens, List.cons.injEq] at same
    obtain ⟨-, -, rfl⟩ := same
    cases rest with
    | assign name' op' rest => exact absurd (plain op') (by simp [Line.tokens])
    | ofSum inner => exact ⟨inner, rfl⟩

end Grammar

end Calculator
