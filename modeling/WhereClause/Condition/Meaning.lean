import WhereClause.Condition.Basic

/-!
# Meaning: when a condition holds

A condition holds or does not hold once it is known which comparisons between fields and values are true: an expression that is
no leaf and a list by their operator, a map as the comparisons of its fields with their values. Nothing is said here of clauses.
A clause keeps this meaning where the grouping of the condition shows in it (`Condition.isGrouped`).
-/

namespace WhereClause

/-- What an operator that joins conditions makes of their truth: `OR` needs one of them, and `AND` all. -/
def Operator.join (op : Operator) (truths : List Bool) : Bool := if op = .or then truths.any id else truths.all id

mutual

/-- Whether a condition holds, given which comparisons are true. Text of the caller's counts as true. -/
def Condition.holds (truth : Expr → Bool) (comparison : Operator) : Condition → Bool
  | .expr ⟨left, op, right⟩ =>
    if (Expr.mk left op right).isLeaf then truth ⟨left, op, right⟩
    else op.join [left.holds truth comparison, right.holds truth comparison]
  | .list items op => op.join (Condition.holdEach truth comparison items)
  | .fieldMap m => m.operator.join (m.fields.entries.map fun e => truth ⟨.field e.1, comparison, .value e.2⟩)
  | .raw _ => true

/-- Whether each of some conditions holds. -/
def Condition.holdEach (truth : Expr → Bool) (comparison : Operator) : List Condition → List Bool
  | [] => []
  | c :: cs => c.holds truth comparison :: Condition.holdEach truth comparison cs

/-- Whether the condition that an operand is holds. A field or a value beside a condition says nothing. -/
def Operand.holds (truth : Expr → Bool) (comparison : Operator) : Operand → Bool
  | .condition c => c.holds truth comparison
  | .field _ => true
  | .value _ => true

end

/-! ## Grouping -/

mutual

/-- Whether an `OR` stands outside all parentheses in the clause of a condition. -/
def Condition.exposesOr : Condition → Bool
  | .expr ⟨left, op, right⟩ =>
    if (Expr.mk left op right).isLeaf then false else op == .or || left.exposesOr || right.exposesOr
  | .list items op => op == .or && decide (2 ≤ items.length)
  | .fieldMap m => m.operator == .or && decide (2 ≤ m.fields.size)
  | .raw _ => false

/-- Whether an `OR` stands outside all parentheses in the clause of an operand. -/
def Operand.exposesOr : Operand → Bool
  | .condition c => c.exposesOr
  | .field _ => false
  | .value _ => false

end

mutual

/-- Whether the clause of a condition shows its grouping: leaves compare, all else joins conditions by `AND` or `OR`, no list
and no map is empty, and no `OR` is exposed beside an `AND`. -/
def Condition.isGrouped : Condition → Bool
  | .expr ⟨left, op, right⟩ =>
    if (Expr.mk left op right).isLeaf then op.isComparison
    else
      op.isCombinator && left.isGrouped && right.isGrouped && !(op == .and && (left.exposesOr || right.exposesOr))
  | .list items op => op.isCombinator && !items.isEmpty && Condition.areGrouped items
  | .fieldMap m => m.operator.isCombinator && decide (0 < m.fields.size)
  | .raw _ => false

/-- Whether the clauses of some conditions show their grouping. -/
def Condition.areGrouped : List Condition → Bool
  | [] => true
  | c :: cs => c.isGrouped && Condition.areGrouped cs

/-- Whether an operand is a condition whose clause shows its grouping. -/
def Operand.isGrouped : Operand → Bool
  | .condition c => c.isGrouped
  | .field _ => false
  | .value _ => false

end

end WhereClause
