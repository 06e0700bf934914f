import WhereClause.Condition.Basic

/-!
# Shape: a condition apart from its values

Two conditions have the same shape when they differ in nothing but the values they hold: the same kinds of node, operators,
names and texts, and a value wherever the other has one.
-/

namespace WhereClause

mutual

/-- A condition with null for each of its values. -/
def Condition.shape : Condition → Condition
  | .expr ⟨left, op, right⟩ => .expr ⟨left.shape, op, right.shape⟩
  | .list items op => .list (Condition.shapes items) op
  | .fieldMap m => .fieldMap ⟨m.fields.map fun _ => .null, m.operator⟩
  | .raw text => .raw text

/-- Conditions with null for each of their values. -/
def Condition.shapes : List Condition → List Condition
  | [] => []
  | c :: cs => c.shape :: Condition.shapes cs

/-- An operand with null for each of its values. -/
def Operand.shape : Operand → Operand
  | .condition c => .condition c.shape
  | .field name => .field name
  | .value _ => .value .null

end

end WhereClause
