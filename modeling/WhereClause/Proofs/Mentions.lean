import WhereClause.Condition.Nodes
import WhereClause.Proofs.Conservation
import WhereClause.Proofs.Verdict

/-!
# Mentions: the fields that a condition mentions

A condition mentions fields in its leaves, and beside the conditions nested in its mixed expressions. What it asks of a schema is
asked of these and of no others (`Condition.mem_names_checks`), a map being asked about as a whole and visited entry by entry.

So a condition is accepted exactly when a visit to all its leaves finds only declared fields there and those beside nested
conditions are declared, too (`Condition.validate_eq_ok_iff_visit`). In a condition with no mixed expression there are none of the
latter, and the visit alone decides (`Condition.validate_eq_ok_iff_allLeaves`).
-/

namespace WhereClause

/-- The names of the fields that are sides of an expression, from left to right. -/
def Expr.fieldNames (e : Expr) : List String := e.left.field?.toList ++ e.right.field?.toList

/-- Whether a schema declares each field that is a side of an expression. -/
def Expr.isDeclared (s : Schema) (e : Expr) : Bool := e.fieldNames.all s.declares

/-- The names of the fields that stand beside a condition in an expression, those inside that condition apart. -/
def Condition.ownFieldsBeside : Condition → List String
  | .expr e => if e.isLeaf then [] else e.fieldNames
  | _ => []

/-- The names of the fields that stand beside a nested condition. -/
def Condition.fieldsBeside (c : Condition) : List String := c.nodes.flatMap Condition.ownFieldsBeside

/-- The names that a check is about. -/
def Check.names : Check → List String
  | .operand name => [name]
  | .map m => m.fields.names

/-! ## What is asked about -/

/-- A check passes exactly when the names that it is about are declared. -/
theorem Check.passes_iff (s : Schema) (check : Check) : check.Passes s ↔ ∀ name ∈ check.names, s.declares name = true := by
  cases check with
  | operand name => rw [Check.Passes, Check.names, List.forall_mem_singleton, s.declares_iff]
  | map m => simp only [Check.Passes, Check.names, s.declares_iff]

/-- A name is that of a side of an expression exactly when it is that of its left or of its right side. -/
theorem Expr.mem_fieldNames_iff (e : Expr) (name : String) :
    name ∈ e.fieldNames ↔ e.left.field? = some name ∨ e.right.field? = some name := by
  rw [Expr.fieldNames, List.mem_append, Option.mem_toList, Option.mem_toList]

/-- The leaves of a map are about its names. -/
theorem FieldMap.flatMap_fieldNames_leaves (m : FieldMap) : m.leaves.flatMap Expr.fieldNames = m.fields.names := by
  rw [FieldMap.leaves, List.flatMap_map]
  exact (List.map_eq_flatMap).symm

mutual

/-- What a condition asks about is what its leaves are about, and the fields beside conditions nested in it. -/
theorem Condition.mem_names_checks (name : String) : ∀ c : Condition,
    name ∈ c.checks.flatMap Check.names ↔ name ∈ c.leaves.flatMap Expr.fieldNames ∨ name ∈ c.fieldsBeside
  | .expr ⟨left, op, right⟩ => by
    have hl := Operand.mem_names_checks name left
    have hr := Operand.mem_names_checks name right
    have hsides := (Expr.mk left op right).mem_fieldNames_iff name
    rw [Condition.checks, Condition.leaves, Condition.fieldsBeside, Condition.nodes, List.flatMap_append, List.mem_append, hl, hr,
      List.flatMap_cons, List.mem_append, Condition.ownFieldsBeside, List.flatMap_append, List.mem_append]
    by_cases hleaf : (Expr.mk left op right).isLeaf = true
    · -- no side of a leaf is a condition, so that what it is about are its own sides
      obtain ⟨hleft, hright⟩ := (Expr.isLeaf_iff _).1 hleaf
      rw [if_pos hleaf, if_pos hleaf, Operand.leaves_eq_nil hleft, Operand.leaves_eq_nil hright, Operand.nodes_eq_nil hleft,
        Operand.nodes_eq_nil hright, List.flatMap_singleton, hsides]
      simp
    · rw [if_neg hleaf, if_neg hleaf, List.flatMap_append, List.mem_append, hsides]
      exact or_or_or_comm.trans (or_congr Iff.rfl or_or_or_comm)
  | .list items op => by
    rw [Condition.checks, Condition.leaves, Condition.fieldsBeside, Condition.nodes]
    exact Condition.mem_names_checksOf name items
  | .fieldMap m => by
    rw [Condition.checks, Condition.leaves, Condition.fieldsBeside, Condition.nodes, List.flatMap_singleton, Check.names,
      m.flatMap_fieldNames_leaves]
    simp [Condition.ownFieldsBeside]
  | .raw text => by
    rw [Condition.checks, Condition.leaves, Condition.fieldsBeside, Condition.nodes]
    simp [Condition.ownFieldsBeside]

theorem Condition.mem_names_checksOf (name : String) : ∀ cs : List Condition,
    name ∈ (Condition.checksOf cs).flatMap Check.names ↔
      name ∈ (Condition.leavesOf cs).flatMap Expr.fieldNames ∨
        name ∈ (Condition.nodesOf cs).flatMap Condition.ownFieldsBeside
  | [] => by
    rw [Condition.checksOf, Condition.leavesOf, Condition.nodesOf]
    simp
  | c :: cs => by
    rw [Condition.checksOf, Condition.leavesOf, Condition.nodesOf, List.flatMap_append, List.flatMap_append,
      List.flatMap_append, List.mem_append, List.mem_append, List.mem_append, Condition.mem_names_checks name c,
      Condition.mem_names_checksOf name cs, Condition.fieldsBeside]
    exact or_or_or_comm

/-- What an operand asks about is, if it is a condition, what that asks about, and if it is a field, its name. -/
theorem Operand.mem_names_checks (name : String) : ∀ o : Operand,
    name ∈ o.checks.flatMap Check.names ↔
      name ∈ o.leaves.flatMap Expr.fieldNames ∨ o.field? = some name ∨ name ∈ o.nodes.flatMap Condition.ownFieldsBeside
  | .condition c => by
    rw [Operand.checks, Operand.leaves, Operand.nodes, Condition.mem_names_checks name c, Condition.fieldsBeside]
    simp [Operand.field?]
  | .field other => by
    rw [Operand.checks, Operand.leaves, Operand.nodes]
    simp [Operand.field?, Check.names, eq_comm]
  | .value v => by
    rw [Operand.checks, Operand.leaves, Operand.nodes]
    simp [Operand.field?]

end

/-! ## What a visit finds -/

/-- A test without effects holds of all expressions that it is run on exactly when it holds of each. -/
theorem Expr.run_testEach_pure (p : Expr → Bool) (es : List Expr) :
    Id.run (Expr.testEach (fun e => pure (p e)) es) = es.all p := by
  induction es with
  | nil => rfl
  | cons e es ih =>
    rw [List.all_cons, ← ih]
    rfl

/-- A visit to the leaves of a condition finds only declared fields exactly when the names that the leaves are about are
declared. -/
theorem Condition.run_allLeaves_isDeclared (c : Condition) (s : Schema) :
    Id.run (c.allLeaves fun e => pure (e.isDeclared s)) = true ↔
      ∀ name ∈ c.leaves.flatMap Expr.fieldNames, s.declares name = true := by
  rw [Condition.allLeaves_eq_testEach, Expr.run_testEach_pure, ← List.all_eq_true, List.all_flatMap]
  rfl

/-- A condition is accepted exactly when a visit to all its leaves finds only declared fields, and the fields beside conditions
nested in it are declared. -/
theorem Condition.validate_eq_ok_iff_visit (c : Condition) (s : Schema) :
    c.validate s = .ok () ↔
      Id.run (c.allLeaves fun e => pure (e.isDeclared s)) = true ∧ ∀ name ∈ c.fieldsBeside, s.declares name = true := by
  have hnames : (∀ check ∈ c.checks, check.Passes s) ↔ ∀ name ∈ c.checks.flatMap Check.names, s.declares name = true := by
    simp only [Check.passes_iff, List.forall_mem_flatMap]
  rw [c.validate_eq_check, c.check_eq_verdict, Check.verdict_eq_ok_iff, hnames, c.run_allLeaves_isDeclared]
  simp only [Condition.mem_names_checks, or_imp, forall_and]

/-- An operand that is a condition is no field. -/
theorem Operand.field?_eq_none {o : Operand} (h : o.isCondition = true) : o.field? = none := by
  cases o with
  | condition c => rfl
  | field name => nomatch h
  | value v => nomatch h

/-- Where every expression of a condition has a condition on both sides or on neither, no field stands beside a condition. -/
theorem Condition.fieldsBeside_eq_nil {c : Condition}
    (h : ∀ e, Condition.expr e ∈ c.nodes → e.isLeaf = false → e.left.isCondition = true ∧ e.right.isCondition = true) :
    c.fieldsBeside = [] := by
  rw [Condition.fieldsBeside, List.flatMap_eq_nil_iff]
  intro node hnode
  unfold Condition.ownFieldsBeside
  split
  · rename_i e
    split
    · rfl
    · rename_i hleaf
      obtain ⟨hl, hr⟩ := h e hnode (Bool.eq_false_iff.2 hleaf)
      rw [Expr.fieldNames, Operand.field?_eq_none hl, Operand.field?_eq_none hr]
      rfl
  · rfl

/-- Where every expression of a condition that is no leaf has conditions on both its sides, the condition is accepted for a schema
exactly when a visit to all its leaves finds that each field on either side of a leaf is declared. -/
theorem Condition.validate_eq_ok_iff_allLeaves (c : Condition) (s : Schema)
    (h : ∀ e, Condition.expr e ∈ c.nodes → e.isLeaf = false → e.left.isCondition = true ∧ e.right.isCondition = true) :
    c.validate s = .ok () ↔ Id.run (c.allLeaves fun e => pure (e.isDeclared s)) = true := by
  have hbeside : ∀ name ∈ c.fieldsBeside, s.declares name = true := by
    rw [Condition.fieldsBeside_eq_nil h]
    exact nofun
  rw [c.validate_eq_ok_iff_visit]
  exact and_iff_left hbeside

/-- A map beside a comparison of two fields and one of a value with a field, for a schema with a gap and a repeated name: the visit
goes on after the field that is not declared, and validating stops there. -/
theorem Condition.validate_eq_ok_iff_allLeaves_nested :
    let s : Schema := .listed "t" [none, some ⟨"a", .int⟩, some ⟨"b", .int⟩, some ⟨"a", .char⟩]
    let c : Condition := .list
      [.ofFields .or [("b", .null), ("a", .int 1)],
       .combine (.expr ⟨.field "a", .lt, .field "z"⟩) .and (.expr ⟨.value (.int 2), .eq, .field "b"⟩)] .or
    (∀ e, Condition.expr e ∈ c.nodes → e.isLeaf = false → e.left.isCondition = true ∧ e.right.isCondition = true) ∧
      (c.validate s = .ok () ↔ Id.run (c.allLeaves fun e => pure (e.isDeclared s)) = true) ∧
      c.validate s = .error (.unknownField "t" "z") := by
  intro s c
  have h : ∀ e, Condition.expr e ∈ c.nodes → e.isLeaf = false → e.left.isCondition = true ∧ e.right.isCondition = true := by
    intro e he hleaf
    simp only [c, Condition.nodes, Condition.nodesOf, Condition.ofFields, Condition.combine, Operand.nodes, List.cons_append,
      List.nil_append, List.append_nil, List.mem_cons, List.not_mem_nil, Condition.expr.injEq, reduceCtorEq, or_false,
      false_or] at he
    rcases he with rfl | rfl | rfl
    · exact ⟨rfl, rfl⟩
    · nomatch hleaf
    · nomatch hleaf
  exact ⟨h, Condition.validate_eq_ok_iff_allLeaves c s h, by decide +kernel⟩

/-- A field beside a nested condition is validated and not visited. -/
example :
    let s : Schema := .listed "t" [some ⟨"a", .int⟩]
    let c : Condition := .expr ⟨.field "z", .and, .condition (.eq "a" .null)⟩
    c.validate s = .error (.unknownField "t" "z") ∧ Id.run (c.allLeaves fun e => pure (e.isDeclared s)) = true := by
  decide +kernel

end WhereClause
