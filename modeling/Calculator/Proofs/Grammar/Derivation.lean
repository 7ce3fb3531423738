import Calculator.Expression.Evaluation

/-!
# Derivations of the grammar

The grammar of a line of input, the loosest phrases first:

    line      := name assign line | sum
    sum       := product (('+' | '-') product)*
    product   := power (('*' | '/') power)*
    power     := converted ('^' converted)*
    converted := signed ('[' unit '->' unit ']')*
    signed    := ('+' | '-')* bracketed
    bracketed := '(' sum ')' | call
    call      := name '(' sum (';' sum)* ')' | atom
    atom      := name | number
    number    := numeral | marker | marker numeral | numeral marker

A `Derivation` is a derivation tree of one of these phrases, with a constructor for each
rule; a repetition is a phrase of its own kind that grows at its right end, since all
operations associate to the left. A tree has the tokens it derives and, in a scope, a
value. The tree of an expression forgets the rules that only pass on to a tighter phrase;
nothing is lost by that (`Derivation.expr_injective`).
-/

namespace Calculator.Grammar

/-- The kinds of phrases within an expression, the loosest first. -/
inductive Phrase where
  | sum
  | product
  | power
  | converted
  | signed
  | bracketed
  | call
  | atom

mutual

/-- The derivation trees of a kind of phrase. -/
inductive Derivation : Phrase → Type where
  | ofProduct (operand : Derivation .product) : Derivation .sum
  | add (left : Derivation .sum) (right : Derivation .product) : Derivation .sum
  | sub (left : Derivation .sum) (right : Derivation .product) : Derivation .sum
  | ofPower (operand : Derivation .power) : Derivation .product
  | mul (left : Derivation .product) (right : Derivation .power) : Derivation .product
  | div (left : Derivation .product) (right : Derivation .power) : Derivation .product
  | ofConverted (operand : Derivation .converted) : Derivation .power
  | pow (base : Derivation .power) (exponent : Derivation .converted) : Derivation .power
  | ofSigned (operand : Derivation .signed) : Derivation .converted
  | convert (operand : Derivation .converted) (source target : String) : Derivation .converted
  | ofBracketed (operand : Derivation .bracketed) : Derivation .signed
  | plus (operand : Derivation .signed) : Derivation .signed
  | minus (operand : Derivation .signed) : Derivation .signed
  | group (inner : Derivation .sum) : Derivation .bracketed
  | ofCall (operand : Derivation .call) : Derivation .bracketed
  | call (function : String) (arguments : ArgumentList) : Derivation .call
  | ofAtom (operand : Derivation .atom) : Derivation .call
  /-- A constant, the last result or a variable; in a line it has no bracket after it, since no rule
  lets one follow an atom. -/
  | name (text : String) : Derivation .atom
  | number (number : Literal) : Derivation .atom

/-- The derivation trees of the arguments of a call. -/
inductive ArgumentList : Type where
  | last (argument : Derivation .sum)
  | cons (argument : Derivation .sum) (rest : ArgumentList)

end

mutual

/-- The tokens that a tree derives. -/
def Derivation.tokens {phrase : Phrase} : Derivation phrase → List Token
  | .ofProduct operand | .ofPower operand | .ofConverted operand | .ofSigned operand
  | .ofBracketed operand | .ofCall operand | .ofAtom operand => operand.tokens
  | .add left right => left.tokens ++ .plus :: right.tokens
  | .sub left right => left.tokens ++ .minus :: right.tokens
  | .mul left right => left.tokens ++ .multiply :: right.tokens
  | .div left right => left.tokens ++ .divide :: right.tokens
  | .pow base exponent => base.tokens ++ .power :: exponent.tokens
  | .convert operand source target =>
    operand.tokens ++ [.openSquare, .unit source, .arrow, .unit target, .closeSquare]
  | .plus operand => .plus :: operand.tokens
  | .minus operand => .minus :: operand.tokens
  | .group inner => .openBracket :: (inner.tokens ++ [.closeBracket])
  | .call function arguments =>
    .identifier function :: .openBracket :: (arguments.tokens ++ [.closeBracket])
  | .name text => [.identifier text]
  | .number number => number.tokens

/-- The tokens of arguments, with semicolons between them. -/
def ArgumentList.tokens : ArgumentList → List Token
  | .last argument => argument.tokens
  | .cons argument rest => argument.tokens ++ .semicolon :: rest.tokens

end

mutual

/-- The value of a phrase: that of its operands from left to right, and then of what joins them. -/
def Derivation.value {phrase : Phrase} (scope : Scope) :
    Derivation phrase → Except EvalError Complex
  | .ofProduct operand | .ofPower operand | .ofConverted operand | .ofSigned operand
  | .ofBracketed operand | .ofCall operand | .ofAtom operand => operand.value scope
  | .add left right => do BinaryOp.add.apply (← left.value scope) (← right.value scope)
  | .sub left right => do BinaryOp.sub.apply (← left.value scope) (← right.value scope)
  | .mul left right => do BinaryOp.mul.apply (← left.value scope) (← right.value scope)
  | .div left right => do BinaryOp.div.apply (← left.value scope) (← right.value scope)
  | .pow base exponent => do BinaryOp.pow.apply (← base.value scope) (← exponent.value scope)
  | .convert operand source target => do convertUnit source target (← operand.value scope)
  | .plus operand => operand.value scope
  | .minus operand => do return -(← operand.value scope)
  | .group inner => inner.value scope
  | .call function arguments => do
    let values ← arguments.values scope
    (← BuiltIn.find function values.length).apply scope.angleUnit values
  | .name text => scope.nameValue text
  | .number number => number.value

/-- The values of arguments, from left to right. -/
def ArgumentList.values (scope : Scope) : ArgumentList → Except EvalError (List Complex)
  | .last argument => do return [← argument.value scope]
  | .cons argument rest => do return (← argument.value scope) :: (← rest.values scope)

end

/-! ## The expressions of derivations -/

mutual

/-- The expression of a tree. -/
def Derivation.expr {phrase : Phrase} : Derivation phrase → Expr
  | .ofProduct operand | .ofPower operand | .ofConverted operand | .ofSigned operand
  | .ofBracketed operand | .ofCall operand | .ofAtom operand => operand.expr
  | .add left right => .binary .add left.expr right.expr
  | .sub left right => .binary .sub left.expr right.expr
  | .mul left right => .binary .mul left.expr right.expr
  | .div left right => .binary .div left.expr right.expr
  | .pow base exponent => .binary .pow base.expr exponent.expr
  | .convert operand source target => .convert operand.expr source target
  | .plus operand => .signed false operand.expr
  | .minus operand => .signed true operand.expr
  | .group inner => .group inner.expr
  | .call function arguments => .call function arguments.exprs
  | .name text => .name text
  | .number number => .literal number

/-- The expressions of arguments. -/
def ArgumentList.exprs : ArgumentList → Arguments
  | .last argument => .last argument.expr
  | .cons argument rest => .cons argument.expr rest.exprs

end

mutual

/-- The value of a phrase is the value of its expression. -/
theorem Derivation.eval_expr {phrase : Phrase} (scope : Scope) :
    ∀ t : Derivation phrase, t.expr.eval scope = t.value scope
  | .ofProduct operand | .ofPower operand | .ofConverted operand | .ofSigned operand
  | .ofBracketed operand | .ofCall operand | .ofAtom operand => by
    simpa only [Derivation.expr, Derivation.value] using operand.eval_expr scope
  | .add left right | .sub left right | .mul left right | .div left right | .pow left right => by
    simp only [Derivation.expr, Derivation.value, Expr.eval, left.eval_expr scope,
      right.eval_expr scope]
  | .convert operand source target => by
    simp only [Derivation.expr, Derivation.value, Expr.eval, operand.eval_expr scope]
  | .plus operand => by
    simp only [Derivation.expr, Derivation.value, Expr.eval, operand.eval_expr scope]
    cases operand.value scope <;> rfl
  | .minus operand => by
    simp only [Derivation.expr, Derivation.value, Expr.eval, operand.eval_expr scope, if_true]
  | .group inner => by
    simpa only [Derivation.expr, Derivation.value, Expr.eval] using inner.eval_expr scope
  | .call function arguments => by
    simp only [Derivation.expr, Derivation.value, Expr.eval, arguments.eval_exprs scope]
  | .name text => by simp only [Derivation.expr, Derivation.value, Expr.eval]
  | .number number => by simp only [Derivation.expr, Derivation.value, Expr.eval]

theorem ArgumentList.eval_exprs (scope : Scope) :
    ∀ ts : ArgumentList, ts.exprs.eval scope = ts.values scope
  | .last argument => by
    simp only [ArgumentList.exprs, ArgumentList.values, Arguments.eval, argument.eval_expr scope]
  | .cons argument rest => by
    simp only [ArgumentList.exprs, ArgumentList.values, Arguments.eval, argument.eval_expr scope,
      rest.eval_exprs scope]

end

/-- How tightly the phrases of a kind hold together. -/
def Phrase.rank : Phrase → Nat
  | .sum => 0
  | .product => 1
  | .power => 2
  | .converted => 3
  | .signed => 4
  | .bracketed => 5
  | .call => 6
  | .atom => 7

/-- The rank of the kind of phrase whose rule forms the expression. -/
def exprRank : Expr → Nat
  | .binary .add _ _ | .binary .sub _ _ => 0
  | .binary .mul _ _ | .binary .div _ _ => 1
  | .binary .pow _ _ => 2
  | .convert _ _ _ => 3
  | .signed _ _ => 4
  | .group _ => 5
  | .call _ _ => 6
  | .name _ | .literal _ => 7

/-- A phrase is formed by its own rule or by that of a tighter phrase. -/
theorem Derivation.rank_le_exprRank {phrase : Phrase} :
    ∀ t : Derivation phrase, phrase.rank ≤ exprRank t.expr
  | .ofProduct operand | .ofPower operand | .ofConverted operand | .ofSigned operand
  | .ofBracketed operand | .ofCall operand | .ofAtom operand => by
    have tighter := operand.rank_le_exprRank
    simp only [Phrase.rank, Derivation.expr] at tighter ⊢
    omega
  | .add _ _ | .sub _ _ | .mul _ _ | .div _ _ | .pow _ _ | .convert _ _ _ | .plus _ | .minus _
  | .group _ | .call _ _ | .name _ | .number _ => Nat.le_refl _

/-- A phrase that is formed by the rule of a looser kind of phrase does not exist. -/
theorem Derivation.expr_ne {phrase : Phrase} (t : Derivation phrase) {e : Expr}
    (looser : exprRank e < phrase.rank) : t.expr ≠ e := by
  rintro rfl
  exact absurd t.rank_le_exprRank (by omega)

mutual

/-- A tree is determined by its expression. -/
theorem Derivation.expr_injective {phrase : Phrase} :
    ∀ t u : Derivation phrase, t.expr = u.expr → t = u
  | .ofProduct t, u, h => by
    cases u with
    | ofProduct u => exact congrArg _ (t.expr_injective u h)
    | add | sub => exact absurd h (t.expr_ne Nat.zero_lt_one)
  | .add l r, u, h => by
    cases u with
    | ofProduct u => exact absurd h.symm (u.expr_ne Nat.zero_lt_one)
    | add l' r' =>
      simp only [Derivation.expr, Expr.binary.injEq, true_and] at h
      rw [l.expr_injective l' h.1, r.expr_injective r' h.2]
    | sub => simp [Derivation.expr] at h
  | .sub l r, u, h => by
    cases u with
    | ofProduct u => exact absurd h.symm (u.expr_ne Nat.zero_lt_one)
    | sub l' r' =>
      simp only [Derivation.expr, Expr.binary.injEq, true_and] at h
      rw [l.expr_injective l' h.1, r.expr_injective r' h.2]
    | add => simp [Derivation.expr] at h
  | .ofPower t, u, h => by
    cases u with
    | ofPower u => exact congrArg _ (t.expr_injective u h)
    | mul | div => exact absurd h (t.expr_ne (Nat.lt_succ_self 1))
  | .mul l r, u, h => by
    cases u with
    | ofPower u => exact absurd h.symm (u.expr_ne (Nat.lt_succ_self 1))
    | mul l' r' =>
      simp only [Derivation.expr, Expr.binary.injEq, true_and] at h
      rw [l.expr_injective l' h.1, r.expr_injective r' h.2]
    | div => simp [Derivation.expr] at h
  | .div l r, u, h => by
    cases u with
    | ofPower u => exact absurd h.symm (u.expr_ne (Nat.lt_succ_self 1))
    | div l' r' =>
      simp only [Derivation.expr, Expr.binary.injEq, true_and] at h
      rw [l.expr_injective l' h.1, r.expr_injective r' h.2]
    | mul => simp [Derivation.expr] at h
  | .ofConverted t, u, h => by
    cases u with
    | ofConverted u => exact congrArg _ (t.expr_injective u h)
    | pow => exact absurd h (t.expr_ne (Nat.lt_succ_self 2))
  | .pow b e, u, h => by
    cases u with
    | ofConverted u => exact absurd h.symm (u.expr_ne (Nat.lt_succ_self 2))
    | pow b' e' =>
      simp only [Derivation.expr, Expr.binary.injEq, true_and] at h
      rw [b.expr_injective b' h.1, e.expr_injective e' h.2]
  | .ofSigned t, u, h => by
    cases u with
    | ofSigned u => exact congrArg _ (t.expr_injective u h)
    | convert => exact absurd h (t.expr_ne (Nat.lt_succ_self 3))
  | .convert t source target, u, h => by
    cases u with
    | ofSigned u => exact absurd h.symm (u.expr_ne (Nat.lt_succ_self 3))
    | convert u =>
      simp only [Derivation.expr, Expr.convert.injEq] at h
      rw [t.expr_injective u h.1, h.2.1, h.2.2]
  | .ofBracketed t, u, h => by
    cases u with
    | ofBracketed u => exact congrArg _ (t.expr_injective u h)
    | plus | minus => exact absurd h (t.expr_ne (Nat.lt_succ_self 4))
  | .plus t, u, h => by
    cases u with
    | ofBracketed u => exact absurd h.symm (u.expr_ne (Nat.lt_succ_self 4))
    | plus u =>
      simp only [Derivation.expr, Expr.signed.injEq, true_and] at h
      rw [t.expr_injective u h]
    | minus => simp [Derivation.expr] at h
  | .minus t, u, h => by
    cases u with
    | ofBracketed u => exact absurd h.symm (u.expr_ne (Nat.lt_succ_self 4))
    | minus u =>
      simp only [Derivation.expr, Expr.signed.injEq, true_and] at h
      rw [t.expr_injective u h]
    | plus => simp [Derivation.expr] at h
  | .group t, u, h => by
    cases u with
    | group u =>
      simp only [Derivation.expr, Expr.group.injEq] at h
      rw [t.expr_injective u h]
    | ofCall u => exact absurd h.symm (u.expr_ne (Nat.lt_succ_self 5))
  | .ofCall t, u, h => by
    cases u with
    | group => exact absurd h (t.expr_ne (Nat.lt_succ_self 5))
    | ofCall u => exact congrArg _ (t.expr_injective u h)
  | .call function ts, u, h => by
    cases u with
    | call function' us =>
      simp only [Derivation.expr, Expr.call.injEq] at h
      rw [h.1, ts.exprs_injective us h.2]
    | ofAtom u => exact absurd h.symm (u.expr_ne (Nat.lt_succ_self 6))
  | .ofAtom t, u, h => by
    cases u with
    | call => exact absurd h (t.expr_ne (Nat.lt_succ_self 6))
    | ofAtom u => exact congrArg _ (t.expr_injective u h)
  | .name text, u, h => by
    cases u with
    | name | number => simp_all [Derivation.expr]
  | .number number, u, h => by
    cases u with
    | name | number => simp_all [Derivation.expr]

theorem ArgumentList.exprs_injective :
    ∀ ts us : ArgumentList, ts.exprs = us.exprs → ts = us
  | .last t, us, h => by
    cases us with
    | last u =>
      simp only [ArgumentList.exprs, Arguments.last.injEq] at h
      rw [t.expr_injective u h]
    | cons => simp [ArgumentList.exprs] at h
  | .cons t ts, us, h => by
    cases us with
    | last => simp [ArgumentList.exprs] at h
    | cons u us =>
      simp only [ArgumentList.exprs, Arguments.cons.injEq] at h
      rw [t.expr_injective u h.1, ts.exprs_injective us h.2]

end

/-- The derivation trees of a line. -/
inductive Line where
  | assign (name : String) (op : AssignOp) (rest : Line)
  | ofSum (body : Derivation .sum)

namespace Line

/-- The tokens that a tree derives. -/
def tokens : Line → List Token
  | .assign name op rest => .identifier name :: .assign op :: rest.tokens
  | .ofSum body => body.tokens

/-- The value that an assignment starts from: that of its variable, unless it only sets it. -/
def oldValue (scope : Scope) (name : String) : AssignOp → Except EvalError (Option Complex)
  | .set => return none
  | _ => do return some (← scope.vars.get name)

/-- The value that an assignment gives its variable. -/
def assigned (op : AssignOp) (old : Option Complex) (z : Complex) : Except MathError Complex :=
  match op, old with
  | .add, some old => BinaryOp.add.apply old z
  | .sub, some old => BinaryOp.sub.apply old z
  | .mul, some old => BinaryOp.mul.apply old z
  | .div, some old => BinaryOp.div.apply old z
  | .pow, some old => BinaryOp.pow.apply old z
  | _, _ => .ok z

/-- The value of a line. An assignment to a reserved name fails, and one that changes a variable
takes the value that the variable has before the line. -/
def value (scope : Scope) : Line → Except EvalError Complex
  | .assign name op rest => do
    if isReserved name then throw (.grammar (.invalidVariableName name))
    let old ← oldValue scope name op
    assigned op old (← rest.value scope)
  | .ofSum body => body.value scope

end Line

end Calculator.Grammar
