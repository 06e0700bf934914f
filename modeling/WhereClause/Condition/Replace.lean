import WhereClause.Condition.Leaves

/-!
# Replace: a condition with its leaves replaced

Every leaf is given to a function, in the order of a visit, and what the function answers takes the leaf's place; operators,
order and all else stay. A part in which nothing changed is kept as it was, where a leaf counts as unchanged if the answer is
the same expression. The entries of a map become a map again if every answer is an equation between a field on the left and a
value on the right and no field occurs twice, and otherwise a list of the answers, joined by the map's operator.
-/

namespace WhereClause

/-- Whether an answer leaves an expression as it is. -/
def Condition.keeps (answer : Condition) (e : Expr) : Bool :=
  match answer with
  | .expr f => f.same e
  | _ => false

/-- The fields and values of equations between a field on the left and a value on the right, no field twice; none otherwise. -/
def FieldMap.ofEquations? (answers : List Condition) : Option (Bindings Value) :=
  answers.foldlM
    (fun fields c =>
      match c with
      | .expr ⟨.field name, .eq, .value v⟩ => if fields.contains name then none else some (fields.insert name v)
      | _ => none)
    Bindings.empty

/-- A map of the answers where they are equations, and a list of them otherwise. -/
def FieldMap.rebuilt (op : Operator) (answers : List Condition) : Condition :=
  match FieldMap.ofEquations? answers with
  | some fields => .fieldMap ⟨fields, op⟩
  | none => .list answers op

/-- The answers for the entries of a map, if one of them changes something. -/
def FieldMap.replace {m : Type → Type} [Monad m] (f : Expr → m Condition) (fields : FieldMap) : m (Option Condition) := do
  let answers ← fields.leaves.mapM f
  if (answers.zip fields.leaves).all fun (answer, leaf) => answer.keeps leaf then return none
  else return some (FieldMap.rebuilt fields.operator answers)

mutual

/-- A condition with its leaves replaced; none where nothing in it changed. -/
def Condition.replace {m : Type → Type} [Monad m] (f : Expr → m Condition) : Condition → m (Option Condition)
  | .raw _ => pure none
  | .expr ⟨left, op, right⟩ =>
    if (Expr.mk left op right).isLeaf then do
      let answer ← f ⟨left, op, right⟩
      return if answer.keeps ⟨left, op, right⟩ then none else some answer
    else do
      let newLeft ← left.replace f
      let newRight ← right.replace f
      if newLeft.isNone && newRight.isNone then return none
      else return some (.expr ⟨newLeft.getD left, op, newRight.getD right⟩)
  | .list items op => do
    let (changed, items) ← Condition.replaceItems f items
    return if changed then some (.list items op) else none
  | .fieldMap fields => fields.replace f

/-- Conditions with their leaves replaced, one after the other, and whether anything in them changed. -/
def Condition.replaceItems {m : Type → Type} [Monad m] (f : Expr → m Condition) : List Condition → m (Bool × List Condition)
  | [] => pure (false, [])
  | c :: cs => do
    let new ← c.replace f
    let (changed, rest) ← Condition.replaceItems f cs
    return (new.isSome || changed, new.getD c :: rest)

/-- An operand with the leaves of the condition that it is replaced; none where nothing in it changed. -/
def Operand.replace {m : Type → Type} [Monad m] (f : Expr → m Condition) : Operand → m (Option Operand)
  | .condition c => do
    let new ← c.replace f
    return new.map .condition
  | .field _ => pure none
  | .value _ => pure none

end

/-- A condition with every leaf replaced by what a function answers for it. -/
def Condition.mapLeaves {m : Type → Type} [Monad m] (f : Expr → m Condition) (c : Condition) : m Condition := do
  let new ← c.replace f
  return new.getD c

end WhereClause
