import WhereClause.Condition.Basic

/-!
# Leaves: the comparisons a condition is made of

The leaves of a condition are its leaf expressions, and for each entry of a map an expression that the field equals the value.
They are visited depth first and from left to right, the entries of a map in the order of the names
(`FieldMap.getElem?_leaves_eq_some_iff`). Neither text of the caller's nor the field or value beside a nested condition has
leaves. A test may have effects, so that it matters that it runs on every leaf once, also when an earlier leaf has failed it.
-/

namespace WhereClause

/-- The entries of a map as expressions that a field equals a value, in the order of the names. -/
def FieldMap.leaves (m : FieldMap) : List Expr := m.fields.entries.map fun e => ⟨.field e.1, .eq, .value e.2⟩

/-- A map has as many leaves as names, and the leaf at a place says that the name at that place, in the rising order of the
names, equals the value it is bound to. -/
theorem FieldMap.getElem?_leaves_eq_some_iff {m : FieldMap} {i : Nat} {e : Expr} : m.leaves[i]? = some e ↔
    ∃ name v, m.fields.names[i]? = some name ∧ m.fields.get? name = some v ∧ e = ⟨.field name, .eq, .value v⟩ := by
  rw [FieldMap.leaves, List.getElem?_map, Option.map_eq_some_iff]
  constructor
  · rintro ⟨entry, hentry, rfl⟩
    obtain ⟨hname, hvalue⟩ := m.fields.getElem?_entries_eq_some_iff.1 hentry
    exact ⟨entry.1, entry.2, hname, hvalue, rfl⟩
  · rintro ⟨name, v, hname, hvalue, rfl⟩
    exact ⟨(name, v), m.fields.getElem?_entries_eq_some_iff.2 ⟨hname, hvalue⟩, rfl⟩

/-- A test run on each of some expressions; whether it held of all of them. -/
def Expr.testEach {m : Type → Type} [Monad m] (p : Expr → m Bool) : List Expr → m Bool
  | [] => pure true
  | e :: es => do
    let here ← p e
    let there ← Expr.testEach p es
    return here && there

mutual

/-- A test run on every leaf of a condition; whether it held of all of them. -/
def Condition.allLeaves {m : Type → Type} [Monad m] (p : Expr → m Bool) : Condition → m Bool
  | .raw _ => pure true
  | .expr ⟨left, op, right⟩ =>
    if (Expr.mk left op right).isLeaf then p ⟨left, op, right⟩
    else do
      let here ← left.allLeaves p
      let there ← right.allLeaves p
      return here && there
  | .list items _ => Condition.allLeavesOf p items
  | .fieldMap fields => Expr.testEach p fields.leaves

/-- A test run on every leaf of conditions one after the other. -/
def Condition.allLeavesOf {m : Type → Type} [Monad m] (p : Expr → m Bool) : List Condition → m Bool
  | [] => pure true
  | c :: cs => do
    let here ← c.allLeaves p
    let there ← Condition.allLeavesOf p cs
    return here && there

/-- A test run on every leaf of the condition that an operand is, if it is one. -/
def Operand.allLeaves {m : Type → Type} [Monad m] (p : Expr → m Bool) : Operand → m Bool
  | .condition c => c.allLeaves p
  | .field _ => pure true
  | .value _ => pure true

end

/-- The number of leaves: how often a test runs. -/
def Condition.leafCount (c : Condition) : Nat :=
  ((c.allLeaves fun _ => do
    modify (· + 1)
    return true : StateM Nat Bool).run 0).2

mutual

/-- The leaves of a condition, in the order of a visit. -/
def Condition.leaves : Condition → List Expr
  | .raw _ => []
  | .expr ⟨left, op, right⟩ =>
    if (Expr.mk left op right).isLeaf then [⟨left, op, right⟩] else left.leaves ++ right.leaves
  | .list items _ => Condition.leavesOf items
  | .fieldMap m => m.leaves

/-- The leaves of conditions one after the other. -/
def Condition.leavesOf : List Condition → List Expr
  | [] => []
  | c :: cs => c.leaves ++ Condition.leavesOf cs

/-- The leaves of the condition that an operand is, if it is one. -/
def Operand.leaves : Operand → List Expr
  | .condition c => c.leaves
  | .field _ => []
  | .value _ => []

end

end WhereClause
