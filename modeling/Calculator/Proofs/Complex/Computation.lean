import Calculator.Expression.Evaluation
import Calculator.Proofs.Complex.Working

/-!
# Computations

A computation makes real and complex numbers, from text, integers and constants, and by the
operations on those it has made before. A failure is reported and leaves nothing behind. Every
number that a computation comes to hold is a working value.
-/

namespace Calculator

/-! ## The operations -/

/-- A function of a real number. -/
inductive RealFunction where
  | neg | abs | sqr | round | roundToPrecision (digits : Nat) | integer | fractional | floor | ceil
  | bitNot | factorial | sqrt | ln | log10 | log2 | exp
  | sin | cos | tan | cot | arcsin | arccos | arctan | arccot

def RealFunction.apply (f : RealFunction) (x : Decimal) : Except MathError Decimal :=
  match f with
  | .neg => return -x
  | .abs => return x.abs
  | .sqr => do x.sqr
  | .round => do x.round
  | .roundToPrecision digits => do x.roundToPrecision digits
  | .integer => do x.integer
  | .fractional => do x.fractional
  | .floor => do x.floor
  | .ceil => do x.ceil
  | .bitNot => do x.bitNot
  | .factorial => x.factorial
  | .sqrt => x.sqrt
  | .ln => x.ln
  | .log10 => x.log10
  | .log2 => x.log2
  | .exp => x.exp
  | .sin => x.sin
  | .cos => x.cos
  | .tan => x.tan
  | .cot => x.cot
  | .arcsin => x.arcsin
  | .arccos => x.arccos
  | .arctan => x.arctan
  | .arccot => x.arccot

/-- An operation on two real numbers. -/
inductive RealOperation where
  | add | sub | mul | div | rem | divInteger | max | min
  | bitOr | bitAnd | bitXor | shl | shr | pow

def RealOperation.apply (op : RealOperation) (x y : Decimal) : Except MathError Decimal :=
  match op with
  | .add => do x.add y
  | .sub => do x.sub y
  | .mul => do x.mul y
  | .div => do x.div y
  | .rem => do x.rem y
  | .divInteger => do x.divInteger y
  | .max => return x.max y
  | .min => return x.min y
  | .bitOr => do x.bitOr y
  | .bitAnd => do x.bitAnd y
  | .bitXor => do x.bitXor y
  | .shl => do x.shl y
  | .shr => do x.shr y
  | .pow => x.pow y

/-- A function of a complex number. -/
inductive ComplexFunction where
  | neg | factorial | ln | log2 | log10 | exp | sqrt
  | sin | cos | tan | cot | arcsin | arccos | arctan | arccot
  | sinh | cosh | tanh | coth | arcsinh | arccosh | arctanh | arccoth

def ComplexFunction.apply (f : ComplexFunction) (z : Complex) : Except MathError Complex :=
  match f with
  | .neg => return -z
  | .factorial => z.factorial
  | .ln => z.ln
  | .log2 => z.log2
  | .log10 => z.log10
  | .exp => z.exp
  | .sqrt => z.sqrt
  | .sin => z.sin
  | .cos => z.cos
  | .tan => z.tan
  | .cot => z.cot
  | .arcsin => z.arcsin
  | .arccos => z.arccos
  | .arctan => z.arctan
  | .arccot => z.arccot
  | .sinh => z.sinh
  | .cosh => z.cosh
  | .tanh => z.tanh
  | .coth => z.coth
  | .arcsinh => z.arcsinh
  | .arccosh => z.arccosh
  | .arctanh => z.arctanh
  | .arccoth => z.arccoth

/-- A real number that belongs to a complex one. -/
inductive Measurement where
  | re | im | sqr | abs | arg

def Measurement.apply (m : Measurement) (z : Complex) : Except MathError Decimal :=
  match m with
  | .re => return z.re
  | .im => return z.im
  | .sqr => do z.sqr
  | .abs => z.abs
  | .arg => z.arg

theorem RealFunction.yields_apply (f : RealFunction) {x : Decimal} (h : x.IsWorking) :
    Yields Decimal.IsWorking (f.apply x) := by
  cases f with
  | neg => exact .pure h.neg
  | abs => exact .pure h.abs
  | sqr => exact .lift (Decimal.yields_sqr x)
  | round => exact .lift h.yields_round
  | roundToPrecision digits => exact .lift (h.yields_roundToPrecision digits)
  | integer => exact .lift h.yields_integer
  | fractional => exact .lift (Decimal.yields_fractional x)
  | floor => exact .lift h.yields_floor
  | ceil => exact .lift h.yields_ceil
  | bitNot => exact .lift (Decimal.yields_bitNot x)
  | factorial => exact Decimal.yields_factorial x
  | sqrt => exact Decimal.yields_sqrt x
  | ln => exact Decimal.yields_ln x
  | log10 => exact Decimal.yields_log10 x
  | log2 => exact Decimal.yields_log2 x
  | exp => exact Decimal.yields_exp x
  | sin => exact Decimal.yields_sin x
  | cos => exact Decimal.yields_cos x
  | tan => exact Decimal.yields_tan x
  | cot => exact Decimal.yields_cot x
  | arcsin => exact Decimal.yields_arcsin x
  | arccos => exact Decimal.yields_arccos x
  | arctan => exact h.yields_arctan
  | arccot => exact Decimal.yields_arccot x

theorem RealOperation.yields_apply (op : RealOperation) {x y : Decimal} (hx : x.IsWorking)
    (hy : y.IsWorking) : Yields Decimal.IsWorking (op.apply x y) := by
  cases op with
  | add => exact .lift (Decimal.yields_add x y)
  | sub => exact .lift (Decimal.yields_sub x y)
  | mul => exact .lift (Decimal.yields_mul x y)
  | div => exact .lift (Decimal.yields_div x y)
  | rem => exact .lift (Decimal.yields_rem x y)
  | divInteger => exact .lift (Decimal.yields_divInteger x y)
  | max => exact .pure (hx.max hy)
  | min => exact .pure (hx.min hy)
  | bitOr => exact .lift (Decimal.yields_bitOr x y)
  | bitAnd => exact .lift (Decimal.yields_bitAnd x y)
  | bitXor => exact .lift (Decimal.yields_bitXor x y)
  | shl => exact .lift (Decimal.yields_shl x y)
  | shr => exact .lift (Decimal.yields_shr x y)
  | pow => exact Decimal.yields_pow x y

theorem ComplexFunction.yields_apply (f : ComplexFunction) {z : Complex} (h : z.IsWorking) :
    Yields Complex.IsWorking (f.apply z) := by
  cases f with
  | neg => exact .pure h.neg
  | factorial => exact Complex.yields_factorial z
  | ln => exact Complex.yields_ln z
  | log2 => exact Complex.yields_log2 z
  | log10 => exact Complex.yields_log10 z
  | exp => exact Complex.yields_exp z
  | sqrt => exact Complex.yields_sqrt z
  | sin => exact Complex.yields_sin z
  | cos => exact Complex.yields_cos z
  | tan => exact Complex.yields_tan z
  | cot => exact Complex.yields_cot z
  | arcsin => exact Complex.yields_arcsin z
  | arccos => exact Complex.yields_arccos z
  | arctan => exact h.yields_arctan
  | arccot => exact Complex.yields_arccot z
  | sinh => exact Complex.yields_sinh z
  | cosh => exact Complex.yields_cosh z
  | tanh => exact Complex.yields_tanh z
  | coth => exact Complex.yields_coth z
  | arcsinh => exact Complex.yields_arcsinh z
  | arccosh => exact Complex.yields_arccosh z
  | arctanh => exact Complex.yields_arctanh z
  | arccoth => exact Complex.yields_arccoth z

/-- The operation on complex numbers answers a working value. -/
theorem BinaryOp.yields_apply (op : BinaryOp) (z w : Complex) :
    Yields Complex.IsWorking (op.apply z w) := by
  cases op with
  | add => exact .lift (Complex.yields_add z w)
  | sub => exact .lift (Complex.yields_sub z w)
  | mul => exact .lift (Complex.yields_mul z w)
  | div => exact .lift (Complex.yields_div z w)
  | pow => exact Complex.yields_pow z w

theorem Measurement.yields_apply (m : Measurement) {z : Complex} (h : z.IsWorking) :
    Yields Decimal.IsWorking (m.apply z) := by
  cases m with
  | re => exact .pure h.1
  | im => exact .pure h.2
  | sqr => exact .lift (Complex.yields_sqr z)
  | abs => exact Complex.yields_abs z
  | arg => exact Complex.yields_arg z

/-! ## Sequences of operations -/

/-- A number that a computation holds. -/
inductive Quantity where
  | real (x : Decimal)
  | complex (z : Complex)
  deriving DecidableEq

def Quantity.IsWorking : Quantity → Prop
  | real x => x.IsWorking
  | complex z => z.IsWorking

/-- The real number at a place. -/
def realAt (made : List Quantity) (n : Nat) : Option Decimal :=
  match made[n]? with
  | some (.real x) => some x
  | _ => none

/-- The complex number at a place. -/
def complexAt (made : List Quantity) (n : Nat) : Option Complex :=
  match made[n]? with
  | some (.complex z) => some z
  | _ => none

/-- What a computation begins with. -/
inductive Source where
  | numeral (text : String)
  | integer (n : Int64)
  | zero | one | pi | e
  | complexZero | complexOne | imaginaryUnit

def Source.answer : Source → Except MathError Quantity
  | .numeral text => do return .real (← Decimal.parse text)
  | .integer n => return .real (.ofInt n.toInt)
  | .zero => return .real .zero
  | .one => return .real .one
  | .pi => return .real .pi
  | .e => return .real .e
  | .complexZero => return .complex .zero
  | .complexOne => return .complex .one
  | .imaginaryUnit => return .complex .i

/-- A step of a computation; operands are places among the numbers made so far. -/
inductive ComputationStep where
  | make (source : Source)
  | real (f : RealFunction) (x : Nat)
  | reals (op : RealOperation) (x y : Nat)
  | complex (f : ComplexFunction) (z : Nat)
  | complexes (op : BinaryOp) (z w : Nat)
  | measure (m : Measurement) (z : Nat)
  | join (re im : Nat)

namespace ComputationStep

/-- The answer of a step, unless an operand is not there or is of the other kind. -/
def answer (made : List Quantity) : ComputationStep → Option (Except MathError Quantity)
  | make source => some source.answer
  | real f x => do
    let x ← realAt made x
    some (f.apply x |>.map .real)
  | reals op x y => do
    let x ← realAt made x
    let y ← realAt made y
    some (op.apply x y |>.map .real)
  | complex f z => do
    let z ← complexAt made z
    some (f.apply z |>.map .complex)
  | complexes op z w => do
    let z ← complexAt made z
    let w ← complexAt made w
    some (op.apply z w |>.map .complex)
  | measure m z => do
    let z ← complexAt made z
    some (m.apply z |>.map .real)
  | join re im => do
    let re ← realAt made re
    let im ← realAt made im
    some (.ok (.complex ⟨re, im⟩))

/-- The numbers that there are after a step. -/
def run (made : List Quantity) (step : ComputationStep) : List Quantity :=
  match step.answer made with
  | some (.ok q) => made ++ [q]
  | _ => made

end ComputationStep

/-- The numbers that a sequence of steps makes. -/
def compute (steps : List ComputationStep) : List Quantity := steps.foldl ComputationStep.run []

/-! ## Working values throughout -/

theorem Source.yields_answer (s : Source) : Yields Quantity.IsWorking s.answer := by
  cases s with
  | numeral text => exact (Decimal.yields_parse text).lift.bind fun x h => .pure h
  | integer n =>
    have low := n.le_toInt
    have high := n.toInt_lt
    exact .pure (Decimal.isWorking_ofInt (by omega))
  | zero => exact .pure Decimal.isWorking_zero
  | one => exact .pure Decimal.isWorking_one
  | pi => exact .pure Decimal.isWorking_pi
  | e => exact .pure Decimal.isWorking_e
  | complexZero => exact .pure Complex.isWorking_zero
  | complexOne => exact .pure Complex.isWorking_one
  | imaginaryUnit => exact .pure Complex.isWorking_i

variable {made : List Quantity}

theorem isWorking_of_realAt (h : ∀ q ∈ made, q.IsWorking) {n : ℕ} {x : Decimal}
    (there : realAt made n = some x) : x.IsWorking := by
  unfold realAt at there
  split at there
  · rename_i found
    cases there
    exact h _ (List.mem_of_getElem? found)
  · cases there

theorem isWorking_of_complexAt (h : ∀ q ∈ made, q.IsWorking) {n : ℕ} {z : Complex}
    (there : complexAt made n = some z) : z.IsWorking := by
  unfold complexAt at there
  split at there
  · rename_i found
    cases there
    exact h _ (List.mem_of_getElem? found)
  · cases there

namespace ComputationStep

/-- On working values the answer of a step is a working value, or an error. -/
theorem yields_answer (h : ∀ q ∈ made, q.IsWorking) (step : ComputationStep)
    {answer : Except MathError Quantity} (there : step.answer made = some answer) :
    Yields Quantity.IsWorking answer := by
  cases step <;>
    simp only [ComputationStep.answer, Option.bind_eq_bind, Option.bind_eq_some_iff,
      Option.some.injEq] at there
  case make source =>
    subst there
    exact source.yields_answer
  case real f x =>
    obtain ⟨x, hx, rfl⟩ := there
    exact (f.yields_apply (isWorking_of_realAt h hx)).map fun _ => id
  case reals op x y =>
    obtain ⟨x, hx, y, hy, rfl⟩ := there
    exact (op.yields_apply (isWorking_of_realAt h hx) (isWorking_of_realAt h hy)).map fun _ => id
  case complex f z =>
    obtain ⟨z, hz, rfl⟩ := there
    exact (f.yields_apply (isWorking_of_complexAt h hz)).map fun _ => id
  case complexes op z w =>
    obtain ⟨z, -, w, -, rfl⟩ := there
    exact (op.yields_apply z w).map fun _ => id
  case measure m z =>
    obtain ⟨z, hz, rfl⟩ := there
    exact (m.yields_apply (isWorking_of_complexAt h hz)).map fun _ => id
  case join re im =>
    obtain ⟨re, hre, im, him, rfl⟩ := there
    exact .pure ⟨isWorking_of_realAt h hre, isWorking_of_realAt h him⟩

/-- A step keeps to working values: it adds one, or nothing. -/
theorem isWorking_run (h : ∀ q ∈ made, q.IsWorking) (step : ComputationStep) :
    ∀ q ∈ step.run made, q.IsWorking := by
  unfold run
  split
  · rename_i made' answered
    intro q mem
    rcases List.mem_append.1 mem with old | new
    · exact h q old
    · rw [List.mem_singleton.1 new]
      exact yields_answer h step answered _ rfl
  · exact h

end ComputationStep

/-- Every number that a sequence of steps makes is zero, or a number of at most 136 digits whose
leading digit is within the exponent bounds; and so is every part of a complex number. -/
theorem isWorking_of_mem_compute (steps : List ComputationStep) :
    ∀ q ∈ compute steps, q.IsWorking := by
  have all (made : List Quantity) (h : ∀ q ∈ made, q.IsWorking) :
      ∀ q ∈ steps.foldl ComputationStep.run made, q.IsWorking := by
    induction steps generalizing made with
    | nil => exact h
    | cons step rest ih => exact ih (step.run made) (step.isWorking_run h)
  exact all [] (by simp)

/-- A product that exceeds the bounds is an error and takes no place; the quotient by the same number
takes the next one. -/
theorem isWorking_quotient :
    let large : Decimal := ⟨9, 999999, .inl (by decide)⟩
    let half : Decimal := ⟨45, 999998, .inl (by decide)⟩
    let steps : List ComputationStep :=
      [.make (.numeral "9E999999"), .make (.integer 2), .reals .mul 0 1, .reals .div 0 1, .join 0 2]
    compute steps = [.real large, .real 2, .real half, .complex ⟨large, half⟩] ∧
      (Quantity.complex ⟨large, half⟩).IsWorking := by
  intro large half steps
  have made : compute steps = [.real large, .real 2, .real half, .complex ⟨large, half⟩] := by
    decide +kernel
  exact ⟨made, isWorking_of_mem_compute steps _ (by rw [made]; simp)⟩

end Calculator
