import WhereClause.Condition.Basic

/-!
# Nodes: the conditions in a condition, and the values in them

The nodes of a condition are the condition itself and all those nested in it, as operands or as items of lists, in the order in
which rendering comes to them. What holds of every value in a condition is said of the values of its nodes.
-/

namespace WhereClause

mutual

/-- Every condition in a condition: itself first, then those inside it from left to right. -/
def Condition.nodes : Condition → List Condition
  | .expr ⟨left, op, right⟩ => .expr ⟨left, op, right⟩ :: (left.nodes ++ right.nodes)
  | .list items op => .list items op :: Condition.nodesOf items
  | .fieldMap m => [.fieldMap m]
  | .raw text => [.raw text]

/-- Every condition in some conditions, one after the other. -/
def Condition.nodesOf : List Condition → List Condition
  | [] => []
  | c :: cs => c.nodes ++ Condition.nodesOf cs

/-- Every condition in the condition that an operand is, if it is one. -/
def Operand.nodes : Operand → List Condition
  | .condition c => c.nodes
  | .field _ => []
  | .value _ => []

end

/-- The values that are sides of an expression, from left to right. -/
def Expr.values (e : Expr) : List Value := e.left.value?.toList ++ e.right.value?.toList

/-- The values of a condition that are not those of a condition inside it. -/
def Condition.ownValues : Condition → List Value
  | .expr e => e.values
  | .fieldMap m => m.fields.entries.map (·.2)
  | .list _ _ => []
  | .raw _ => []

/-- The values in a condition. -/
def Condition.values (c : Condition) : List Value := c.nodes.flatMap Condition.ownValues

/-- The values that stand beside a nested condition. -/
def Condition.valuesBeside (c : Condition) : List Value :=
  c.nodes.flatMap fun
    | .expr e => if e.isLeaf then [] else e.values
    | _ => []

end WhereClause
