import Calculator.Expression.Evaluation

/-!
# The effect of assignments

A chain of assignments changes the variables by committing a suffix of the chain, from
right to left. `Carried` says which values are committed: the rightmost target gets what
its operation makes of the value of the expression, and every other one what its operation
makes of the value that the target on its right got. The old values are those before the
chain.
-/

namespace Calculator

/-! ## The store -/

namespace Variables

theorem lookup?_insertAt_self (vars : Variables) (key : String) (v : Variable) :
    (vars.insertAt key v).lookup? key = some v := by
  simp only [lookup?, insertAt]
  induction vars.entries with
  | nil => simp [insertEntry]
  | cons entry rest ih =>
    rw [insertEntry]
    split
    · simp
    · split
      · simp
      · rename_i other
        simpa [Ne.symm other] using ih

theorem lookup?_insertAt_of_ne (vars : Variables) {key other : String} (v : Variable)
    (h : other ≠ key) : (vars.insertAt key v).lookup? other = vars.lookup? other := by
  simp only [lookup?, insertAt]
  induction vars.entries with
  | nil => simp [insertEntry, Ne.symm h]
  | cons entry rest ih =>
    rw [insertEntry]
    split
    · simp [Ne.symm h]
    · split
      · rename_i same
        simp [← same, Ne.symm h]
      · simp only [List.find?_cons]
        split
        · rfl
        · exact ih

/-- The store after assignments that are carried out from right to left. -/
def commit (vars : Variables) : List (String × Complex) → Variables
  | [] => vars
  | (name, z) :: rest => (vars.commit rest).insert name z

/-- A variable that is not assigned to keeps its value and its spelling. -/
theorem lookup?_commit_of_notMem (vars : Variables) {key : String} {done : List (String × Complex)}
    (h : ∀ entry ∈ done, Text.lowercase entry.1 ≠ key) :
    (vars.commit done).lookup? key = vars.lookup? key := by
  induction done with
  | nil => rfl
  | cons entry rest ih =>
    have other : key ≠ Text.lowercase entry.1 := (h entry (by simp)).symm
    rw [commit, insert, lookup?_insertAt_of_ne _ _ other]
    exact ih fun entry' mem => h entry' (by simp [mem])

end Variables

/-! ## The chain -/

/-- The targets of a line are names among its tokens. -/
theorem mem_of_mem_takeTargets {tokens : List Token} {target : Target}
    (mem : target ∈ (Statement.takeTargets tokens).1) : .identifier target.name ∈ tokens := by
  fun_induction Statement.takeTargets tokens with
  | case1 first op rest targets left taken ih =>
    rw [taken] at ih
    rcases List.mem_cons.1 mem with rfl | mem
    · exact List.mem_cons_self
    · exact List.mem_cons_of_mem _ (List.mem_cons_of_mem _ (ih mem))
  | case2 => cases mem

/-- Carried out from the value `z` with these variables, the assignments to the targets commit the
entries and give the value `v`. -/
inductive Carried (vars : Variables) (z : Complex) :
    List Target → List (String × Complex) → Complex → Prop where
  | nil : Carried vars z [] [] z
  | cons {target : Target} {rest : List Target} {done : List (String × Complex)}
      {old : Option Complex} {v w : Complex} (carried : Carried vars z rest done w)
      (current : target.current vars = .ok old) (combined : target.combine old w = .ok v) :
      Carried vars z (target :: rest) ((target.name, v) :: done) v

/-- The entries belong to the targets, one to each. -/
theorem Carried.names {vars : Variables} {z v : Complex} {targets : List Target}
    {done : List (String × Complex)} (h : Carried vars z targets done v) :
    done.map Prod.fst = targets.map Target.name := by
  induction h with
  | nil => rfl
  | cons _ _ _ ih => simp [ih]

/-- A chain that succeeds is carried out as a whole. -/
theorem carried_of_assign {vars after : Variables} {value : Unit → Except EvalError Complex}
    {targets : List Target} {v : Complex} (h : assign vars value targets = (.ok v, after)) :
    ∃ z done, value () = .ok z ∧ Carried vars z targets done v ∧ after = vars.commit done := by
  induction targets generalizing v after with
  | nil =>
    simp only [assign, Prod.mk.injEq] at h
    exact ⟨v, [], h.1, .nil, h.2.symm⟩
  | cons target rest ih =>
    rw [assign] at h
    split at h
    · cases h
    · split at h
      · cases h
      · rename_i old current
        split at h
        · cases h
        · rename_i w others carried
          split at h
          · cases h
          · rename_i combined
            cases h
            obtain ⟨z, done, valued, suffix, rfl⟩ := ih carried
            exact ⟨z, (target.name, v) :: done, valued, .cons suffix current combined, rfl⟩

/-- A chain that fails is carried out on a suffix of its targets, or not at all. -/
theorem carried_of_assign_error {vars after : Variables} {value : Unit → Except EvalError Complex}
    {targets : List Target} {error : EvalError} (h : assign vars value targets = (.error error, after)) :
    after = vars ∨ ∃ suffix z w done, suffix <:+ targets ∧ value () = .ok z ∧
      Carried vars z suffix done w ∧ after = vars.commit done := by
  induction targets generalizing error after with
  | nil =>
    simp only [assign, Prod.mk.injEq] at h
    exact .inl h.2.symm
  | cons target rest ih =>
    rw [assign] at h
    split at h
    · cases h
      exact .inl rfl
    · split at h
      · cases h
        exact .inl rfl
      · split at h
        · rename_i failed
          cases h
          rcases ih failed with unchanged | ⟨suffix, z, w, done, within, rest⟩
          · exact .inl unchanged
          · exact .inr ⟨suffix, z, w, done, within.trans (List.suffix_cons ..), rest⟩
        · rename_i w others carried
          split at h
          · cases h
            obtain ⟨z, done, valued, all, same⟩ := carried_of_assign carried
            exact .inr ⟨rest, z, w, done, List.suffix_cons .., valued, all, same⟩
          · cases h

end Calculator
