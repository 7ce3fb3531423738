import Calculator.Proofs.Complex.Working
import Calculator.Proofs.Numeral.Reading
import Calculator.Proofs.Session.Store
import Calculator.Saved.Settings
import Calculator.Saved.Variables

/-!
# What is saved reads back

A number is saved as a numeral of the grammar that numbers are read by, so reading is the inverse of
saving on working values. From there it is record by record: the fields of a record are found under
their names, and the keys of a store come in the order in which they are put back.
-/

namespace Calculator

open Precision (working)

/-! ## Numbers -/

namespace Decimal

variable {x y : Decimal}

/-- The numeral that a number is saved as. -/
def exactNumeral (x : Decimal) : NumeralText where
  mantissa :=
    { sign := .before .none x.coefficient
      whole := digitChars x.coefficient.natAbs
      fraction := none
      whole_digits := fun _ => isDigit_of_mem_digitChars
      fraction_digits := fun _ mem => absurd mem List.not_mem_nil
      some_digit := by simpa using digitChars_ne_nil _ }
  exponent := some (.ofInt .upper .none x.exponent)

theorem digits_exactNumeral : x.exactNumeral.mantissa.digits = digitChars x.coefficient.natAbs :=
  List.append_nil _

/-- A number is saved as a numeral that denotes it. -/
theorem value_exactNumeral : x.exactNumeral.value = x.value := by
  have coefficient : x.exactNumeral.mantissa.coefficient = x.coefficient := by
    rw [Mantissa.coefficient, digits_exactNumeral, digitsValue_digitChars]
    exact Sign.apply_before rfl x.coefficient
  have scale : x.exactNumeral.scale - x.exactNumeral.mantissa.places = x.exponent := by
    rw [NumeralText.scale, exactNumeral, Option.elim_some, Exponent.value_ofInt rfl]
    exact Int.sub_zero _
  rw [NumeralText.value_eq, coefficient, scale, value]

/-- The text of a saved number is that of its numeral. -/
theorem IsWorking.exactText_eq (h : x.IsWorking) :
    x.exactText = String.ofList x.exactNumeral.chars := by
  have sign (n : Int) : (Sign.before .none n).chars = if n < 0 then ['-'] else [] := by
    unfold Sign.before
    split <;> rfl
  rw [exactText, h.lift_eq]
  simp only [exactNumeral, NumeralText.chars, Mantissa.chars, Mantissa.unsigned, Exponent.chars,
    Exponent.signed, Exponent.ofInt, ExponentCase.letter, sign, isNegative, Option.elim_some,
    Option.elim_none, List.append_nil, decide_eq_true_eq]

/-- The text that a working value is saved as is read as that value. -/
theorem IsWorking.parse_exactText (h : x.IsWorking) : parse x.exactText = .ok x := by
  rw [h.exactText_eq]
  refine NumeralText.parse_of_map h value_exactNumeral NumeralText.map_chars_eq_self (.inr ?_)
  have few : digitCount x.coefficient.natAbs ≤ working.digits := h.digits_le
  rw [digits_exactNumeral, length_digitChars]
  exact few.trans_lt (by decide)

/-- Numbers are saved alike only if they are the same. -/
theorem exactText_inj (hx : x.IsWorking) (hy : y.IsWorking) :
    x.exactText = y.exactText ↔ x = y := by
  constructor
  · intro same
    have read := hx.parse_exactText
    rw [same, hy.parse_exactText] at read
    exact (Except.ok.inj read).symm
  · rintro rfl
    rfl

/-- A saved number is read back. -/
theorem ofJson?_toJson (h : x.IsWorking) : ofJson? x.toJson = some x := by
  simp only [ofJson?, toJson, Json.text?, Option.bind_eq_bind, Option.bind_some, h.parse_exactText]
  rfl

end Decimal

/-- A saved complex number is read back, part by part. -/
theorem Complex.ofJson?_toJson {z : Complex} (h : z.IsWorking) : ofJson? z.toJson = some z := by
  have fields : z.toJson.record? ["re", "im"] = some [some z.re.toJson, some z.im.toJson] := rfl
  simp only [ofJson?, fields, Option.bind_eq_bind, Option.bind_some, Decimal.ofJson?_toJson h.1,
    Decimal.ofJson?_toJson h.2]
  rfl

/-! ## Settings -/

theorem NumberStyle.ofJson?_toJson (style : NumberStyle) : ofJson? style.toJson = some style := by
  cases style <;> rfl

theorem ExponentCase.ofJson?_toJson (letter : ExponentCase) :
    ofJson? letter.toJson = some letter := by
  cases letter <;> rfl

theorem Separator.ofJson?_toJson (separator : Separator) :
    ofJson? separator.toJson = some separator := by
  cases separator <;> rfl

theorem ImaginaryUnit.ofJson?_toJson (unit : ImaginaryUnit) : ofJson? unit.toJson = some unit := by
  cases unit <;> rfl

theorem AngleUnit.ofJson?_toJson (unit : AngleUnit) : ofJson? unit.toJson = some unit := by
  cases unit <;> rfl

/-- A number that fits into 64 bits is read as a count. -/
theorem Json.count?_number {n : Nat} (small : n < 2 ^ 64) : (Json.number n 0).count? = some n := by
  rw [Json.count?, if_pos (by omega), Int.toNat_natCast]

namespace NumberFormat

variable {f : NumberFormat}

/-- The fields of a format read back, in a record of their own or in one with the imaginary unit. -/
theorem ofFields?_jsonFields (small : f.precision < 2 ^ 64) :
    ofFields? (f.jsonFields.map fun field => some field.2) = some f := by
  simp only [jsonFields, List.map_cons, List.map_nil, ofFields?, Json.orDefault,
    Json.count?_number small, NumberStyle.ofJson?_toJson, ExponentCase.ofJson?_toJson,
    Separator.ofJson?_toJson]
  rfl

/-- No choice is saved as an object. -/
theorem emptyAsNull_jsonFields :
    (f.jsonFields.map fun field => some field.2).map (Option.map Json.emptyAsNull) =
      f.jsonFields.map fun field => some field.2 := by
  obtain ⟨precision, style, letter, separator⟩ := f
  cases style <;> cases letter <;> cases separator <;> rfl

end NumberFormat

/-- A saved format is read back. -/
theorem ComplexFormat.ofJson?_toJson {f : ComplexFormat} (small : f.number.precision < 2 ^ 64) :
    ofJson? f.toJson = some f := by
  have fields : f.toJson.namedFields? NumberFormat.fieldNames =
      some (f.number.jsonFields.map fun field => some field.2) := rfl
  have unit : f.toJson.namedFields? ["imaginary_unit"] = some [some f.imaginaryUnit.toJson] := rfl
  simp only [ofJson?, fields, unit, Option.bind_eq_bind, Option.bind_some,
    NumberFormat.emptyAsNull_jsonFields, NumberFormat.ofFields?_jsonFields small, Json.orDefault,
    ImaginaryUnit.ofJson?_toJson]
  rfl

/-- Saved settings are read back. -/
theorem Settings.ofJson?_toJson {s : Settings} (small : s.format.number.precision < 2 ^ 64) :
    ofJson? s.toJson = some s := by
  have fields : s.toJson.record? ["angle_unit", "format"] =
      some [some s.angleUnit.toJson, some s.format.toJson] := rfl
  simp only [ofJson?, fields, Json.orDefault, Option.bind_eq_bind, Option.bind_some,
    AngleUnit.ofJson?_toJson, ComplexFormat.ofJson?_toJson small]
  rfl

/-! ## Variables -/

/-- A saved variable is read back with its name and value. -/
theorem Variable.ofJson?_toJson {v : Variable} (h : v.value.IsWorking) :
    ofJson? v.toJson = some v := by
  have fields : v.toJson.record? ["name", "value"] =
      some [some (.text v.name), some v.value.toJson] := rfl
  simp only [ofJson?, fields, Json.text?, Option.bind_eq_bind, Option.bind_some,
    Complex.ofJson?_toJson h]
  rfl

namespace Variables

variable {vars : Variables}

/-- What is done to a store of variables. -/
inductive Change where
  | assign (name : String) (value : Complex)
  | remove (name : String)
  | clear

/-- The store after a change. The removal of a name that is not there changes nothing. -/
def apply (vars : Variables) : Change → Variables
  | .assign name value => vars.insert name value
  | .remove name =>
    match vars.remove name with
    | .ok (_, rest) => rest
    | .error _ => vars
  | .clear => empty

/-- The store after a row of changes. -/
def afterChanges (vars : Variables) (changes : List Change) : Variables := changes.foldl apply vars

/-- The value that a change puts into the store, if it puts one, is a working value. -/
def Change.IsWorking : Change → Prop
  | .assign _ value => value.IsWorking
  | .remove _ | .clear => True

/-- All values of the store are working values. -/
def IsWorking (vars : Variables) : Prop := vars.Every fun _ v => v.value.IsWorking

/-- A change by a working value keeps the values of a store working values. -/
theorem IsWorking.apply (h : vars.IsWorking) {change : Change} (working : change.IsWorking) :
    (vars.apply change).IsWorking := by
  cases change with
  | assign name value => exact Every.insertAt h working
  | remove name =>
    cases removed : vars.remove name with
    | ok pair =>
      rw [Variables.apply, removed]
      exact Every.remove h removed
    | error =>
      rw [Variables.apply, removed]
      exact h
  | clear => exact every_empty

/-- So does a row of changes. -/
theorem IsWorking.afterChanges (h : vars.IsWorking) {changes : List Change}
    (working : ∀ change ∈ changes, change.IsWorking) : (vars.afterChanges changes).IsWorking := by
  induction changes generalizing vars with
  | nil => exact h
  | cons change rest ih =>
    exact ih (h.apply (working change List.mem_cons_self)) fun c mem =>
      working c (List.mem_cons_of_mem _ mem)

/-- Entries that follow those of a store in order are put back behind them. -/
theorem insertSaved_entries {entries : List (String × Variable)}
    (working : ∀ entry ∈ entries, entry.2.value.IsWorking)
    (ordered : ((vars.entries ++ entries).map Prod.fst).Pairwise (· < ·)) :
    ∃ saved, vars.insertSaved (entries.map fun (key, v) => (key, v.toJson)) = some saved ∧
      saved.entries = vars.entries ++ entries := by
  induction entries generalizing vars with
  | nil => exact ⟨vars, rfl, (List.append_nil _).symm⟩
  | cons head rest ih =>
    obtain ⟨key, v⟩ := head
    have above : ∀ entry ∈ vars.entries, entry.1 < key := by
      rw [List.map_append, List.pairwise_append] at ordered
      exact fun entry mem => ordered.2.2 _ (List.mem_map_of_mem mem) _ List.mem_cons_self
    have front : (vars.insertAt key v).entries = vars.entries ++ [(key, v)] :=
      insertEntry_of_above above
    have split : vars.entries ++ (key, v) :: rest = (vars.insertAt key v).entries ++ rest := by
      rw [front, List.append_assoc, List.singleton_append]
    rw [split] at ordered ⊢
    rw [List.map_cons, insertSaved, Variable.ofJson?_toJson (working _ List.mem_cons_self)]
    exact ih (fun entry mem => working entry (List.mem_cons_of_mem _ mem)) ordered

/-- A saved store is read back with its variables in order. -/
theorem IsWorking.ofJson?_toJson (h : vars.IsWorking) : ofJson? vars.toJson = some vars := by
  obtain ⟨saved, read, entries⟩ := @insertSaved_entries empty _ h vars.ordered
  change empty.insertSaved _ = some vars
  rw [read, ext_entries entries]

end Variables

/-! ## Everything that is saved -/

/-- On working values reading is the inverse of saving, so the text of a number tells it from all
others. The settings read back with every choice and every number of digits that fits a machine
word, and so does every store of working values that can be built. -/
theorem saved_reads_back :
    (∀ x : Decimal, x.IsWorking →
      Decimal.parse x.exactText = .ok x ∧ Decimal.ofJson? x.toJson = some x) ∧
    (∀ x y : Decimal, x.IsWorking → y.IsWorking → (x.exactText = y.exactText ↔ x = y)) ∧
    (∀ z : Complex, z.IsWorking → Complex.ofJson? z.toJson = some z) ∧
    (∀ s : Settings, s.format.number.precision < 2 ^ 64 → Settings.ofJson? s.toJson = some s) ∧
    ∀ changes : List Variables.Change, (∀ change ∈ changes, change.IsWorking) →
      Variables.ofJson? (Variables.empty.afterChanges changes).toJson =
        some (Variables.empty.afterChanges changes) := by
  refine ⟨fun x h => ⟨h.parse_exactText, Decimal.ofJson?_toJson h⟩, fun x y => Decimal.exactText_inj,
    fun z => Complex.ofJson?_toJson, fun s => Settings.ofJson?_toJson, fun changes working => ?_⟩
  exact (Variables.IsWorking.afterChanges Variables.every_empty working).ofJson?_toJson

/-- The largest number and the smallest one, and a store that has lost one of them. -/
theorem extremes_read_back :
    let large : Decimal := ⟨10 ^ 136 - 1, 999864, .inl (by decide)⟩
    let small : Decimal := ⟨-1, -999999, .inl (by decide)⟩
    let changes : List Variables.Change :=
      [.assign "x" ⟨large, small⟩, .assign "Y" ⟨small, large⟩, .remove "X"]
    Decimal.parse large.exactText = .ok large ∧ large.exactText ≠ small.exactText ∧
      Complex.ofJson? (Complex.toJson ⟨large, small⟩) = some ⟨large, small⟩ ∧
      Settings.ofJson? Settings.initial.toJson = some .initial ∧
      Variables.ofJson? (Variables.empty.afterChanges changes).toJson =
        some (Variables.empty.afterChanges changes) := by
  intro large small changes
  have working : large.IsWorking ∧ small.IsWorking := by decide +kernel
  have changed : ∀ change ∈ changes, change.IsWorking := by
    simp [changes, Variables.Change.IsWorking, Complex.IsWorking, working]
  obtain ⟨number, text, complex, settings, store⟩ := saved_reads_back
  refine ⟨(number large working.1).1, ?_, complex _ working, settings _ (by decide),
    store changes changed⟩
  rw [ne_eq, text large small working.1 working.2]
  exact fun same => absurd (congrArg Decimal.exponent same) (by decide)

end Calculator
