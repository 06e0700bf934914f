import WhereClause.Bindings
import WhereClause.Operator
import WhereClause.Value.Basic

/-!
# Condition: which rows are wanted, as a tree

A condition is an expression, a list of conditions joined by one operator, a map that gives several fields their wanted
values, or text of the caller's. An expression has an operand on either side: a field, a value, or a condition nested in it.
Where neither side is a condition the expression is a leaf; where just one is, it is mixed.

Conditions are compared part by part, values as `Value.same` does. The comparison is not that of the parts themselves: two JSON
values may be equal and be written differently.
-/

namespace WhereClause

/-- The wanted values of several fields, joined by an operator. -/
structure FieldMap where
  fields : Bindings Value
  operator : Operator

mutual

/-- Which rows are wanted. -/
inductive Condition where
  /-- Two operands and the operator between them. -/
  | expr (e : Expr)
  /-- Any number of conditions, joined by one operator and each in parentheses. -/
  | list (items : List Condition) (operator : Operator)
  /-- Several fields, each compared with its value. -/
  | fieldMap (m : FieldMap)
  /-- Text that goes into the clause as it is. -/
  | raw (text : String)

/-- Two operands and the operator between them. -/
structure Expr where
  left : Operand
  operator : Operator
  right : Operand

/-- One side of an expression. -/
inductive Operand where
  /-- A condition, nested without parentheses. -/
  | condition (c : Condition)
  /-- A field of the entity. -/
  | field (name : String)
  /-- A literal, bound to a placeholder. -/
  | value (v : Value)

end

/-! ## Parts -/

/-- The kinds of condition. -/
inductive Condition.Kind where
  | expr | list | fieldMap | raw
  deriving DecidableEq

/-- Every kind of condition, in order. -/
def Condition.Kind.all : List Condition.Kind := [.expr, .list, .fieldMap, .raw]

/-- How a kind is written, in documents and messages. -/
def Condition.Kind.name : Condition.Kind → String
  | .expr => "expr"
  | .list => "list"
  | .fieldMap => "field_map"
  | .raw => "raw"

/-- The kind of a condition. -/
def Condition.kind : Condition → Condition.Kind
  | .expr _ => .expr
  | .list _ _ => .list
  | .fieldMap _ => .fieldMap
  | .raw _ => .raw

/-- Whether an operand is a condition. -/
def Operand.isCondition : Operand → Bool
  | .condition _ => true
  | _ => false

/-- The condition that an operand is, if it is one. -/
def Operand.condition? : Operand → Option Condition
  | .condition c => some c
  | _ => none

/-- The name of the field that an operand is, if it is one. -/
def Operand.field? : Operand → Option String
  | .field name => some name
  | _ => none

/-- The value that an operand is, if it is one. -/
def Operand.value? : Operand → Option Value
  | .value v => some v
  | _ => none

/-- Whether no side of an expression is a condition. -/
def Expr.isLeaf (e : Expr) : Bool := !e.left.isCondition && !e.right.isCondition

/-- The field that an expression names: the one on its left, or else on its right. -/
def Expr.field? (e : Expr) : Option String := e.left.field? <|> e.right.field?

/-- The value that an expression holds: the one on its right, or else on its left. -/
def Expr.value? (e : Expr) : Option Value := e.right.value? <|> e.left.value?

/-- Whether a condition is a leaf. -/
def Condition.isLeaf : Condition → Bool
  | .expr e => e.isLeaf
  | _ => false

/-! ## Comparison -/

/-- Whether two lists of values bound to names are equal entry by entry. -/
def Value.sameEntries : List (String × Value) → List (String × Value) → Bool
  | [], [] => true
  | (n, v) :: es, (m, w) :: fs => n == m && v.same w && Value.sameEntries es fs
  | _, _ => false

/-- Whether two field maps have the same operator and give the same fields the same values. -/
def FieldMap.same (m n : FieldMap) : Bool := Value.sameEntries m.fields.entries n.fields.entries && m.operator == n.operator

mutual

/-- Whether two conditions are equal part by part. -/
def Condition.same : Condition → Condition → Bool
  | .expr e, .expr f => e.same f
  | .list cs o, .list ds p => Condition.sameItems cs ds && o == p
  | .fieldMap m, .fieldMap n => m.same n
  | .raw s, .raw t => s == t
  | _, _ => false

/-- Whether two expressions are equal part by part. -/
def Expr.same : Expr → Expr → Bool
  | ⟨l, o, r⟩, ⟨k, p, s⟩ => l.same k && o == p && r.same s

/-- Whether two operands are equal. -/
def Operand.same : Operand → Operand → Bool
  | .condition c, .condition d => c.same d
  | .field n, .field m => n == m
  | .value v, .value w => v.same w
  | _, _ => false

/-- Whether two lists of conditions are equal item by item. -/
def Condition.sameItems : List Condition → List Condition → Bool
  | [], [] => true
  | c :: cs, d :: ds => c.same d && Condition.sameItems cs ds
  | _, _ => false

end

/-! ## Building -/

/-- A field compared with a value. -/
def Condition.compare (field : String) (op : Operator) (v : Value) : Condition := .expr ⟨.field field, op, .value v⟩

/-- A field equal to a value. -/
def Condition.eq (field : String) (v : Value) : Condition := Condition.compare field .eq v

/-- A field different from a value. -/
def Condition.ne (field : String) (v : Value) : Condition := Condition.compare field .notEq v

/-- A field less than a value. -/
def Condition.lt (field : String) (v : Value) : Condition := Condition.compare field .lt v

/-- A field at most a value. -/
def Condition.le (field : String) (v : Value) : Condition := Condition.compare field .ltEq v

/-- A field greater than a value. -/
def Condition.gt (field : String) (v : Value) : Condition := Condition.compare field .gt v

/-- A field at least a value. -/
def Condition.ge (field : String) (v : Value) : Condition := Condition.compare field .gtEq v

/-- A field that a pattern matches. -/
def Condition.like (field pattern : String) : Condition := Condition.compare field .like (.string pattern)

/-- Two conditions and an operator between them, without parentheses. -/
def Condition.combine (left : Condition) (op : Operator) (right : Condition) : Condition :=
  .expr ⟨.condition left, op, .condition right⟩

/-- Conditions of which all are wanted. -/
def Condition.allOf (items : List Condition) : Condition := .list items .and

/-- Conditions of which one is wanted. -/
def Condition.anyOf (items : List Condition) : Condition := .list items .or

/-- Fields with their wanted values; of two values for one field the later counts. -/
def Condition.ofFields (op : Operator) (fields : List (String × Value)) : Condition :=
  .fieldMap ⟨Bindings.ofList fields, op⟩

/-! ## Small lemmas -/

/-- An expression is a leaf exactly when neither of its sides is a condition. -/
theorem Expr.isLeaf_iff (e : Expr) : e.isLeaf = true ↔ e.left.condition? = none ∧ e.right.condition? = none := by
  cases e with
  | mk l o r => cases l <;> cases r <;> simp [Expr.isLeaf, Operand.isCondition, Operand.condition?]

end WhereClause
