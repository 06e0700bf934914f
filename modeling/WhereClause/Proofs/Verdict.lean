import WhereClause.Proofs.Omissions

/-!
# Verdict: for which reason a condition is rejected

What a condition asks of a schema is listed from left to right (`Condition.checks`), and validating stops at the first thing on
that list that the schema does not grant. So the verdict on a condition is read off the list: acceptance, if every check passes,
and otherwise the rejection that the first failing check comes to (`Condition.validate_first_failing`). What comes after that
check, or how the checks are nested in the condition, has no influence.

A check passes when the names in it are declared (`Check.Passes`). For an operand there is one rejection that a failing check can
come to. For a map there is one, too, although it is described by what it lists: two lists of names in rising order with the same
members are the same list.
-/

namespace WhereClause

/-! ## One check -/

/-- A check passes: a schema declares the names in it. -/
def Check.Passes (s : Schema) : Check → Prop
  | .operand name => name ∈ s.fields.map (·.name)
  | .map m => ∀ name ∈ m.fields.names, name ∈ s.fields.map (·.name)

/-- A check fails for a reason. An operand is rejected by its name; a map by a list of names in rising order, which are those of
its names that are not declared. Either is rejected for the entity of the schema. -/
def Check.FailsFor (s : Schema) (reason : Rejection) : Check → Prop
  | .operand name => name ∉ s.fields.map (·.name) ∧ reason = .unknownField s.entityName name
  | .map m =>
    ∃ names : List String, reason = .unknownFields s.entityName names ∧ names ≠ [] ∧ names.Pairwise (· < ·) ∧
      ∀ name, name ∈ names ↔ name ∈ m.fields.names ∧ name ∉ s.fields.map (·.name)

/-- A name is among the undeclared names of a map exactly when the map has it and no field does. -/
theorem FieldMap.mem_undeclared_iff (m : FieldMap) (s : Schema) (name : String) :
    name ∈ m.undeclared s ↔ name ∈ m.fields.names ∧ name ∉ s.fields.map (·.name) := by
  rw [FieldMap.undeclared, List.mem_filter, ← s.declares_iff]
  simp

/-- The undeclared names of a map are in rising order, as its names are. -/
theorem FieldMap.pairwise_undeclared (m : FieldMap) (s : Schema) : (m.undeclared s).Pairwise (· < ·) := by
  have hnames : m.fields.names.Pairwise (· < ·) := m.fields.rising
  exact hnames.filter _

/-- Names in rising order are told by their members. -/
theorem Entries.names_eq_of_mem_iff {names others : List String} (hnames : names.Pairwise (· < ·))
    (hothers : others.Pairwise (· < ·)) (h : ∀ name, name ∈ names ↔ name ∈ others) : names = others := by
  have hperm : names.Perm others :=
    (List.perm_ext_iff_of_nodup (Entries.nodup_of_pairwise_lt hnames) (Entries.nodup_of_pairwise_lt hothers)).2 h
  exact hperm.eq_of_pairwise (fun a b _ _ hab hba => absurd hba (String.lt_asymm hab)) hnames hothers

/-- A map comes to a rejection for its undeclared names, if it has any. -/
theorem Check.rejection?_map (s : Schema) (m : FieldMap) :
    (Check.map m).rejection? s =
      if (m.undeclared s).isEmpty then none else some (.unknownFields s.entityName (m.undeclared s)) := rfl

/-- A check comes to no rejection exactly when it passes. -/
theorem Check.rejection?_eq_none_iff (s : Schema) (check : Check) : check.rejection? s = none ↔ check.Passes s := by
  cases check with
  | operand name => simp [Check.rejection?, Check.Passes, Schema.declares_iff]
  | map m => simp [Check.rejection?_map, Check.Passes, FieldMap.undeclared, Schema.declares_iff]

/-- A check comes to a rejection exactly when it fails for that reason. -/
theorem Check.rejection?_eq_some_iff (s : Schema) (check : Check) (reason : Rejection) :
    check.rejection? s = some reason ↔ check.FailsFor s reason := by
  cases check with
  | operand name =>
    simp only [Check.rejection?, Check.FailsFor, ← s.declares_iff]
    split
    · rename_i h
      simp [h]
    · rename_i h
      simp [h, eq_comm]
  | map m =>
    rw [Check.rejection?_map, Check.FailsFor]
    constructor
    · intro h
      split at h
      · exact absurd h.symm (Option.some_ne_none reason)
      · rename_i hne
        refine ⟨m.undeclared s, (Option.some.inj h).symm, ?_, m.pairwise_undeclared s, m.mem_undeclared_iff s⟩
        rwa [List.isEmpty_iff] at hne
    · rintro ⟨names, rfl, hne, hrising, hmem⟩
      have hnames : names = m.undeclared s := by
        refine Entries.names_eq_of_mem_iff hrising (m.pairwise_undeclared s) fun name => ?_
        rw [hmem, m.mem_undeclared_iff]
      rw [← hnames, if_neg (by rwa [List.isEmpty_iff])]

/-! ## Checks one after the other -/

/-- Acceptance, unless there is a rejection. -/
def Rejection.verdict : Option Rejection → Except Rejection Unit
  | none => .ok ()
  | some reason => .error reason

/-- The verdict on checks that are tried one after the other: the first rejection that one comes to, or acceptance. -/
def Check.verdict (s : Schema) (checks : List Check) : Except Rejection Unit :=
  Rejection.verdict (checks.findSome? (Check.rejection? s))

theorem Check.verdict_append (s : Schema) (checks later : List Check) :
    Check.verdict s (checks ++ later) = (do Check.verdict s checks; Check.verdict s later) := by
  rw [Check.verdict, Check.verdict, Check.verdict, List.findSome?_append]
  cases checks.findSome? (Check.rejection? s) with
  | none => rfl
  | some reason => rfl

theorem Check.verdict_singleton (s : Schema) (check : Check) :
    Check.verdict s [check] = Rejection.verdict (check.rejection? s) := by
  rw [Check.verdict, List.findSome?_singleton]

/-- The verdict on checks is acceptance exactly when they pass. -/
theorem Check.verdict_eq_ok_iff (s : Schema) (checks : List Check) :
    Check.verdict s checks = .ok () ↔ ∀ check ∈ checks, check.Passes s := by
  simp only [← Check.rejection?_eq_none_iff, ← List.findSome?_eq_none_iff, Check.verdict]
  cases checks.findSome? (Check.rejection? s) <;> simp [Rejection.verdict]

/-- The verdict on checks is a rejection exactly when one of them fails for that reason and those before it pass. -/
theorem Check.verdict_eq_error_iff (s : Schema) (checks : List Check) (reason : Rejection) :
    Check.verdict s checks = .error reason ↔
      ∃ before check after, checks = before ++ check :: after ∧ (∀ earlier ∈ before, earlier.Passes s) ∧
        check.FailsFor s reason := by
  have hfirst : Check.verdict s checks = .error reason ↔ checks.findSome? (Check.rejection? s) = some reason := by
    rw [Check.verdict]
    cases checks.findSome? (Check.rejection? s) <;> simp [Rejection.verdict]
  rw [hfirst, List.findSome?_eq_some_iff]
  simp only [Check.rejection?_eq_none_iff, Check.rejection?_eq_some_iff]
  constructor
  · rintro ⟨before, check, after, hchecks, hfails, hpass⟩
    exact ⟨before, check, after, hchecks, hpass, hfails⟩
  · rintro ⟨before, check, after, hchecks, hpass, hfails⟩
    exact ⟨before, check, after, hchecks, hfails, hpass⟩

/-! ## Conditions -/

/-- Validating a map is one check on all its names. -/
theorem FieldMap.check_eq_verdict (s : Schema) (m : FieldMap) : m.check s = Check.verdict s [.map m] := by
  rw [m.check_eq_undeclared, Check.verdict_singleton, Check.rejection?_map]
  split
  · rfl
  · rfl

mutual

/-- Validating a condition tries its checks one after the other. -/
theorem Condition.check_eq_verdict (s : Schema) : ∀ c : Condition, c.check s = Check.verdict s c.checks
  | .expr ⟨left, op, right⟩ => by
    rw [Condition.check, Condition.checks, Check.verdict_append, Operand.check_eq_verdict s left,
      Operand.check_eq_verdict s right]
  | .list items op => by
    rw [Condition.check, Condition.checks]
    exact Condition.checkItems_eq_verdict s items
  | .fieldMap m => by
    rw [Condition.check, Condition.checks]
    exact m.check_eq_verdict s
  | .raw text => by
    rw [Condition.check, Condition.checks]
    rfl

theorem Condition.checkItems_eq_verdict (s : Schema) : ∀ cs : List Condition,
    Condition.checkItems s cs = Check.verdict s (Condition.checksOf cs)
  | [] => by
    rw [Condition.checkItems, Condition.checksOf]
    rfl
  | c :: cs => by
    rw [Condition.checkItems, Condition.checksOf, Check.verdict_append, Condition.check_eq_verdict s c,
      Condition.checkItems_eq_verdict s cs]

theorem Operand.check_eq_verdict (s : Schema) : ∀ o : Operand, o.check s = Check.verdict s o.checks
  | .condition c => by
    rw [Operand.check, Operand.checks]
    exact Condition.check_eq_verdict s c
  | .field name => by
    rw [Operand.check, Operand.checks, Check.verdict_singleton, Check.rejection?, s.declares_eq_hasField]
    split
    · rfl
    · rfl
  | .value v => by
    rw [Operand.check, Operand.checks]
    rfl

end

/-- A condition is accepted exactly when every check of it passes, and rejected for a reason exactly when, in the order from left
to right, the first check that does not pass fails for that reason. Text of the caller's asks nothing and is always accepted. -/
theorem Condition.validate_first_failing (c : Condition) (s : Schema) :
    (c.validate s = .ok () ↔ ∀ check ∈ c.checks, check.Passes s) ∧
    (∀ reason : Rejection, c.validate s = .error reason ↔
      ∃ before check after, c.checks = before ++ check :: after ∧ (∀ earlier ∈ before, earlier.Passes s) ∧
        ¬ check.Passes s ∧ check.FailsFor s reason) ∧
    ∀ text : String, (Condition.raw text).checks = [] ∧ (Condition.raw text).validate s = .ok () := by
  -- a check that fails for some reason does not pass
  have hfails : ∀ (check : Check) (reason : Rejection), check.FailsFor s reason → ¬ check.Passes s := by
    intro check reason hfor hpasses
    rw [← Check.rejection?_eq_some_iff] at hfor
    rw [← Check.rejection?_eq_none_iff, hfor] at hpasses
    nomatch hpasses
  have hverdict : ∀ d : Condition, d.validate s = Check.verdict s d.checks :=
    fun d => (d.validate_eq_check s).trans (d.check_eq_verdict s)
  refine ⟨?_, fun reason => ?_, fun text => ?_⟩
  · rw [hverdict, Check.verdict_eq_ok_iff]
  · rw [hverdict, Check.verdict_eq_error_iff]
    constructor
    · rintro ⟨before, check, after, hchecks, hpass, hfor⟩
      exact ⟨before, check, after, hchecks, hpass, hfails check reason hfor, hfor⟩
    · rintro ⟨before, check, after, hchecks, hpass, -, hfor⟩
      exact ⟨before, check, after, hchecks, hpass, hfor⟩
  · have hchecks : (Condition.raw text).checks = [] := by rw [Condition.checks]
    rw [hverdict, hchecks]
    exact ⟨rfl, rfl⟩

/-- Of an undeclared operand beside a nested map, and the undeclared names of that map, the one on the left is to blame. -/
example :
    let s : Schema := .listed "t" [none, some ⟨"a", .int⟩]
    let m : Condition := .ofFields .or [("z", .null), ("a", .null), ("y", .null)]
    (Condition.expr ⟨.condition m, .and, .field "x"⟩).validate s = .error (.unknownFields "t" ["y", "z"]) ∧
      (Condition.expr ⟨.field "x", .and, .condition m⟩).validate s = .error (.unknownField "t" "x") := by
  decide +kernel

end WhereClause
