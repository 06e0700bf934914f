import WhereClause.Condition.Leaves

/-!
# Rebuild: a condition built anew from answers for its leaves

Every leaf gives way to the answer for it, whether or not that is another expression; nothing is kept for being unchanged. The
answers for the entries of a map are a map where each is an equation between a field on the left and a value on the right and no
field occurs twice, and a list otherwise.
-/

namespace WhereClause

/-- The field and the value of an equation between a field on the left and a value on the right. -/
def Condition.equation? : Condition → Option (String × Value)
  | .expr ⟨.field name, .eq, .value v⟩ => some (name, v)
  | _ => none

/-- Answers for the entries of a map, put together. -/
def FieldMap.ofAnswers (op : Operator) (answers : List Condition) : Condition :=
  match answers.mapM Condition.equation? with
  | some equations =>
    if (equations.map (·.1)).Nodup then Condition.ofFields op equations else .list answers op
  | none => .list answers op

mutual

/-- A condition built anew, each leaf given way to the answer for it. -/
def Condition.rebuild {m : Type → Type} [Monad m] (f : Expr → m Condition) : Condition → m Condition
  | .expr ⟨left, op, right⟩ =>
    if (Expr.mk left op right).isLeaf then f ⟨left, op, right⟩
    else do
      let left ← left.rebuild f
      let right ← right.rebuild f
      return .expr ⟨left, op, right⟩
  | .list items op => do
    let items ← Condition.rebuildItems f items
    return .list items op
  | .fieldMap fields => do
    let answers ← fields.leaves.mapM f
    return FieldMap.ofAnswers fields.operator answers
  | .raw text => pure (.raw text)

/-- Conditions built anew, one after the other. -/
def Condition.rebuildItems {m : Type → Type} [Monad m] (f : Expr → m Condition) : List Condition → m (List Condition)
  | [] => pure []
  | c :: cs => do
    let c ← c.rebuild f
    let cs ← Condition.rebuildItems f cs
    return c :: cs

/-- An operand built anew; a field and a value stay. -/
def Operand.rebuild {m : Type → Type} [Monad m] (f : Expr → m Condition) : Operand → m Operand
  | .condition c => do
    let c ← c.rebuild f
    return .condition c
  | .field name => pure (.field name)
  | .value v => pure (.value v)

end

end WhereClause
