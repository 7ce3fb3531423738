import Calculator.Proofs.Grammar.Reading
import Calculator.Proofs.Token.Shape

/-!
# The faults of readings

Where the conversions among the tokens are whole, a reading finds no fault with a conversion, and
with a number only for a second marker of the imaginary part. Each reader takes the tokens of what
it reads off the front and leaves whole conversions behind; a fault, and the expressions in front of
it, are about the tokens that the reader was given.
-/

namespace Calculator

/-- Two markers of an imaginary number stand side by side, or on both sides of its numeral. -/
def DoubledMarker (text : String) (tokens : List Token) : Prop :=
  [.imaginaryOne, .number text, .imaginaryOne] <:+: tokens ∨
    text = "" ∧ [.imaginaryOne, .imaginaryOne] <:+: tokens

/-- The fault is not the form of a conversion, and that of a number is a doubled marker. -/
structure GrammarError.FitsTokens (tokens : List Token) (fault : GrammarError) : Prop where
  conversion : fault ≠ .conversionForm
  number : ∀ text, fault = .invalidNumber text → DoubledMarker text tokens

namespace GrammarError.FitsTokens

variable {fault : GrammarError} {tokens more : List Token}

/-- Most faults are about neither. -/
theorem of_ne (conversion : fault ≠ .conversionForm) (number : ∀ text, fault ≠ .invalidNumber text) :
    fault.FitsTokens tokens :=
  ⟨conversion, fun text found => absurd found (number text)⟩

/-- A doubled marker is the fault that a number of these tokens may have. -/
theorem of_doubled {text : String} (doubled : DoubledMarker text tokens) :
    (GrammarError.invalidNumber text).FitsTokens tokens := by
  refine ⟨nofun, ?_⟩
  rintro _ ⟨⟩
  exact doubled

/-- A fault of some of the tokens is a fault of all of them. -/
theorem mono (h : fault.FitsTokens tokens) (part : tokens <:+: more) : fault.FitsTokens more := by
  refine ⟨h.conversion, fun text found => ?_⟩
  rcases h.number text found with sides | ⟨none, markers⟩
  · exact .inl (sides.trans part)
  · exact .inr ⟨none, markers.trans part⟩

end GrammarError.FitsTokens

namespace Expr

variable {α : Type} {spelling : α → List Token} {tokens : List Token}

/-! ## Orderly readers -/

/-- What a reading of these tokens may come to: something whose tokens it has taken off the front, or
a fault in them after expressions that are made of them. -/
inductive ReadsFrom (spelling : α → List Token) (tokens : List Token) : Reading α → Prop
  | ok {a : α} {rest : List Token} (taken : spelling a ++ rest = tokens)
      (whole : WholeConversions rest) : ReadsFrom spelling tokens (.ok (a, rest))
  | error {broken : Broken} (complete : ∀ e ∈ broken.complete, e.tokens ⊆ tokens)
      (fault : broken.fault.FitsTokens tokens) : ReadsFrom spelling tokens (.error broken)

/-- The reader keeps to its tokens wherever their conversions are whole. -/
def Orderly (spelling : α → List Token) (reader : List Token → Reading α) : Prop :=
  ∀ tokens, WholeConversions tokens → ReadsFrom spelling tokens (reader tokens)

/-- A fault behind a part of the tokens is a fault of all of them. -/
theorem ReadsFrom.error_after {β : Type} {spelling' : β → List Token} {broken : Broken}
    {back : List Token} (h : ReadsFrom spelling back (.error broken)) (front : List Token)
    (parts : front ++ back = tokens) : ReadsFrom spelling' tokens (.error broken) := by
  cases h with
  | error complete fault =>
    have suffix : back <:+ tokens := ⟨front, parts⟩
    refine .error (fun e mem => ?_) (fault.mono suffix.isInfix)
    exact List.Subset.trans (complete e mem) suffix.subset

/-- So it is when an expression was read in front of it. -/
theorem ReadsFrom.error_after_expr {β : Type} {spelling' : β → List Token} {broken : Broken}
    {e : Expr} {back : List Token} (h : ReadsFrom spelling back (.error broken))
    (between : List Token) (parts : e.tokens ++ (between ++ back) = tokens) :
    ReadsFrom spelling' tokens (.error (broken.after e)) := by
  have later : ReadsFrom spelling' tokens (.error broken) :=
    h.error_after (e.tokens ++ between) (by rw [List.append_assoc, parts])
  cases later with
  | error complete fault =>
    refine .error (fun other mem => ?_) fault
    rcases List.mem_cons.1 mem with rfl | mem
    · exact parts ▸ List.subset_append_left _ _
    · exact complete other mem

/-- A token that an expression cannot start with, or none. -/
theorem readsFrom_missing : ReadsFrom spelling tokens (.error missing) :=
  .error (by simp [missing]) (.of_ne nofun nofun)

/-! ## Operands -/

/-- One token at the front, then two, then three, decide what a number is. -/
theorem orderly_readLiteral : Orderly Expr.tokens readLiteral := by
  intro tokens whole
  have marker {rest : List Token} (h : WholeConversions (.imaginaryOne :: rest)) :
      WholeConversions rest := h.tail rfl
  have numeral {text : String} {rest : List Token} (h : WholeConversions (.number text :: rest)) :
      WholeConversions rest := h.tail rfl
  unfold readLiteral
  split
  · rename_i text rest
    refine .error ?_ (.of_doubled (.inl ⟨[], rest, rfl⟩))
    simp [Expr.tokens, Literal.tokens]
  · exact .ok rfl (numeral (marker whole))
  · rename_i rest
    exact .error (by simp) (.of_doubled (.inr ⟨rfl, [], rest, rfl⟩))
  · exact .ok rfl (marker whole)
  · exact .ok rfl (marker (numeral whole))
  · exact .ok rfl (numeral whole)
  · exact readsFrom_missing

section

variable {inner operand : List Token → Reading Expr} {op? : Token → Option BinaryOp}

/-- Arguments keep to their tokens where their expressions do. -/
theorem orderly_readArguments (h : Orderly Expr.tokens inner) (limit : Nat) :
    Orderly Arguments.tokens (readArguments inner limit) := by
  induction limit with
  | zero => exact fun _ _ => readsFrom_missing
  | succ limit ih =>
    intro tokens whole
    have first := h tokens whole
    rw [readArguments]
    generalize inner tokens = reading at first ⊢
    rcases reading with broken | ⟨argument, rest⟩
    · exact first.error_after [] rfl
    · cases first with
      | ok taken whole =>
        split
        · rename_i found
          cases found
        · rename_i rest found
          cases found
          have others := ih rest (whole.tail rfl)
          generalize readArguments inner limit rest = reading at others ⊢
          rcases reading with broken | ⟨arguments, behind⟩
          · exact others.error_after_expr [.semicolon] taken
          · cases others with
            | ok taken' whole' =>
              exact .ok (by simp [Arguments.tokens, ← taken, ← taken']) whole'
        · rename_i found
          cases found
          exact .ok taken whole

/-- The tokens of an argument are among those of the arguments. -/
theorem subset_tokens_of_mem_toList :
    ∀ {arguments : Arguments}, ∀ e ∈ arguments.toList, e.tokens ⊆ arguments.tokens
  | .last argument, e, mem => by
    obtain rfl := List.mem_singleton.1 mem
    exact List.Subset.refl _
  | .cons argument rest, e, mem => by
    rcases List.mem_cons.1 mem with rfl | mem
    · exact List.subset_append_left _ _
    · exact List.Subset.trans (subset_tokens_of_mem_toList e mem)
        (List.Subset.trans (List.subset_cons_self _ _) (List.subset_append_right _ _))

/-- A call keeps to its tokens where its arguments do. -/
theorem readsFrom_readCall (h : Orderly Expr.tokens inner) (function : String)
    (whole : WholeConversions tokens) :
    ReadsFrom Expr.tokens (.identifier function :: .openBracket :: tokens)
      (readCall inner function tokens) := by
  have first := orderly_readArguments h tokens.length tokens whole
  rw [readCall]
  generalize readArguments inner tokens.length tokens = reading at first ⊢
  rcases reading with broken | ⟨arguments, rest⟩
  · exact first.error_after [.identifier function, .openBracket] rfl
  · cases first with
    | ok taken whole =>
      split
      · rename_i found
        cases found
      · rename_i rest found
        cases found
        exact .ok (by simp [Expr.tokens, ← taken]) (whole.tail rfl)
      · rename_i found
        cases found
        refine .error (fun e mem => ?_) (.of_ne nofun nofun)
        have some : e.tokens ⊆ tokens := by
          rw [← taken]
          exact List.Subset.trans (subset_tokens_of_mem_toList e mem) (List.subset_append_left _ _)
        exact List.subset_cons_of_subset _ (List.subset_cons_of_subset _ some)

/-- Brackets keep to their tokens where the expression inside does. -/
theorem readsFrom_readGroup (h : Orderly Expr.tokens inner) (whole : WholeConversions tokens) :
    ReadsFrom Expr.tokens (.openBracket :: tokens) (readGroup inner tokens) := by
  have first := h tokens whole
  rw [readGroup]
  generalize inner tokens = reading at first ⊢
  rcases reading with broken | ⟨e, rest⟩
  · exact first.error_after [.openBracket] rfl
  · cases first with
    | ok taken whole =>
      split
      · rename_i found
        cases found
      · rename_i rest found
        cases found
        exact .ok (by simp [Expr.tokens, ← taken]) (whole.tail rfl)
      · rename_i found
        cases found
        refine .error (fun e mem => ?_) (.of_ne nofun nofun)
        obtain rfl := List.mem_singleton.1 mem
        rw [← taken]
        simp

/-- An operand keeps to its tokens: they are those of a number, a name, a call or a group. -/
theorem orderly_readOperand (h : Orderly Expr.tokens inner) :
    Orderly Expr.tokens (readOperand inner) := by
  intro tokens whole
  unfold readOperand
  split
  · exact readsFrom_readGroup h (whole.tail rfl)
  · exact readsFrom_readCall h _ ((whole.tail rfl).tail rfl)
  · exact .ok rfl (whole.tail rfl)
  · exact orderly_readLiteral _ whole

/-! ## Levels -/

/-- A sign is a token of its own. -/
theorem orderly_readSigned (h : Orderly Expr.tokens operand) :
    Orderly Expr.tokens (readSigned operand) := by
  -- A sign stands in front of whatever is read behind it.
  have signed (negative : Bool) {rest : List Token} {r : Reading Expr}
      (behind : ReadsFrom Expr.tokens rest r) :
      ReadsFrom Expr.tokens ((if negative then .minus else .plus) :: rest)
        (r.map (Prod.map (.signed negative) id)) := by
    rcases r with broken | ⟨e, rest⟩
    · exact behind.error_after [if negative then .minus else .plus] rfl
    · cases behind with
      | ok taken whole => exact .ok (by simp [Expr.tokens, ← taken]) whole
  intro tokens whole
  fun_induction readSigned operand tokens with
  | case1 rest ih => exact signed true (ih (whole.tail rfl))
  | case2 rest ih => exact signed false (ih (whole.tail rfl))
  | case3 tokens => exact h tokens whole

/-- A conversion is found whole, and so is every further one. -/
theorem readsFrom_readConversions {e : Expr} {rest : List Token} (taken : e.tokens ++ rest = tokens)
    (whole : WholeConversions rest) : ReadsFrom Expr.tokens tokens (readConversions e rest) := by
  fun_induction readConversions e rest with
  | case1 e source target rest ih =>
    obtain ⟨_, _, _, same, behind⟩ := whole.exists_units
    cases same
    exact ih (by simp [Expr.tokens, ← taken]) behind
  | case2 e rest other =>
    obtain ⟨source, target, behind, rfl, -⟩ := whole.exists_units
    exact absurd rfl (other source target behind)
  | case3 e rest => exact .ok taken whole

/-- The tokens that the operations of a level are found by are theirs. -/
def Operations (op? : Token → Option BinaryOp) : Prop :=
  ∀ {token op}, op? token = some op → op.token = token

theorem operations_sum : Operations sumOp? := by
  intro token op found
  cases token <;> simp only [sumOp?, reduceCtorEq, Option.some.injEq] at found
  all_goals
    subst found
    rfl

theorem operations_product : Operations productOp? := by
  intro token op found
  cases token <;> simp only [productOp?, reduceCtorEq, Option.some.injEq] at found
  all_goals
    subst found
    rfl

theorem operations_power : Operations powerOp? := by
  intro token op found
  cases token <;> simp only [powerOp?, reduceCtorEq, Option.some.injEq] at found
  all_goals
    subst found
    rfl

/-- The tokens of the operands so far stand in front of those that the loop goes on with. -/
theorem readsFrom_readChain (operations : Operations op?) (h : Orderly Expr.tokens operand)
    (limit : Nat) {left : Expr} {rest : List Token} (taken : left.tokens ++ rest = tokens)
    (whole : WholeConversions rest) :
    ReadsFrom Expr.tokens tokens (readChain op? operand limit left rest) := by
  induction limit generalizing left rest with
  | zero => cases rest <;> exact .ok taken whole
  | succ limit ih =>
    rcases rest with _ | ⟨token, rest⟩
    · exact .ok taken whole
    · rw [readChain]
      cases found : op? token with
      | none => exact .ok taken whole
      | some op =>
        obtain rfl := operations found
        have next := h rest (whole.tail (by cases op <;> rfl))
        dsimp only
        generalize operand rest = reading at next ⊢
        rcases reading with broken | ⟨right, behind⟩
        · exact next.error_after_expr [op.token] taken
        · cases next with
          | ok taken' whole' => exact ih (by simp [Expr.tokens, ← taken, ← taken']) whole'

/-- A level of the grammar keeps to its tokens where the level below does. -/
theorem orderly_readLevel (operations : Operations op?) (h : Orderly Expr.tokens operand) :
    Orderly Expr.tokens (readLevel op? operand) := by
  intro tokens whole
  have first := h tokens whole
  rw [readLevel]
  generalize operand tokens = reading at first ⊢
  rcases reading with broken | ⟨left, rest⟩
  · exact first
  · cases first with
    | ok taken whole => exact readsFrom_readChain operations h _ taken whole

theorem orderly_readConverted (h : Orderly Expr.tokens inner) :
    Orderly Expr.tokens (readConverted inner) := by
  intro tokens whole
  have first := orderly_readSigned (orderly_readOperand h) tokens whole
  rw [readConverted]
  generalize readSigned (readOperand inner) tokens = reading at first ⊢
  rcases reading with broken | ⟨e, rest⟩
  · exact first
  · cases first with
    | ok taken whole => exact readsFrom_readConversions taken whole

theorem orderly_readSum (h : Orderly Expr.tokens inner) : Orderly Expr.tokens (readSum inner) :=
  orderly_readLevel operations_sum (orderly_readLevel operations_product
    (orderly_readLevel operations_power (orderly_readConverted h)))

end

theorem orderly_readWithin (depth : Nat) : Orderly Expr.tokens (readWithin depth) := by
  induction depth with
  | zero => exact fun _ _ => readsFrom_missing
  | succ depth ih => exact fun tokens whole => orderly_readSum ih tokens whole

/-- The reader of expressions keeps to its tokens at every depth of brackets. -/
theorem orderly_read : Orderly Expr.tokens read := fun tokens whole =>
  orderly_readWithin (tokens.length + 1) tokens whole

end Expr

end Calculator
