import WhereClause.Condition.Basic
import WhereClause.Schema

/-!
# Comparands: the values of a condition and what each is compared with

The values of a condition are listed in the order of their placeholders, each with the name of the field on the other side of its
expression, if there is a field. The values of a map are compared with its fields, which come in the order of the schema; fields
that the schema does not declare have no place in that order.
-/

namespace WhereClause

/-- The values of a map, each with its field, in the order of the schema. -/
def FieldMap.comparands (s : Schema) (m : FieldMap) : List (Option String × Value) :=
  s.fields.filterMap fun f => (m.fields.get? f.name).map fun v => (some f.name, v)

mutual

/-- The values of a condition, each with the name of the field that it is compared with. -/
def Condition.comparands (s : Schema) : Condition → List (Option String × Value)
  | .expr ⟨left, _, right⟩ => left.comparands s right.field? ++ right.comparands s left.field?
  | .list items _ => Condition.comparandsOf s items
  | .fieldMap m => m.comparands s
  | .raw _ => []

/-- The values of conditions one after the other. -/
def Condition.comparandsOf (s : Schema) : List Condition → List (Option String × Value)
  | [] => []
  | c :: cs => c.comparands s ++ Condition.comparandsOf s cs

/-- The values of an operand, given the name of the field on the other side, if there is one. -/
def Operand.comparands (s : Schema) : Operand → Option String → List (Option String × Value)
  | .condition c, _ => c.comparands s
  | .field _, _ => []
  | .value v, counterpart => [(counterpart, v)]

end

end WhereClause
