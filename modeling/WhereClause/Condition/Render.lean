import WhereClause.Renderer

/-!
# Render: conditions as text with placeholders

An expression is its left side, its operator and its right side, with no parentheses of its own; a list has each of its items
in parentheses; a map has the fields that the schema declares, in the schema's order; text of the caller's goes in as it is. A
value is bound with the field on the other side of its expression, if that is a field that the schema declares. Rendering
never fails: the fields of a map that the schema does not declare are left out and reported.
-/

namespace WhereClause

/-- The fields of a schema that a map names, in the schema's order. -/
def FieldMap.selected (m : FieldMap) (s : Schema) : List Field := s.fields.filter fun f => m.fields.contains f.name

/-- The fields that a map names and a schema does not declare, in order. -/
def FieldMap.unknown (m : FieldMap) (s : Schema) : List String := m.fields.names.filter fun n => !s.hasField n

/-- A map rendered. What is left out is reported when fewer fields are rendered than the map names. -/
def FieldMap.render (m : FieldMap) (r : Renderer) : Renderer :=
  let selected := m.selected r.schema
  let r := if selected.length < m.fields.size then r.record (.skipping r.schema.entityName (m.unknown r.schema)) else r
  Renderer.pushFields r.comparison m.fields m.operator.code r selected

mutual

/-- A condition rendered, without a report that it is. -/
def Condition.renderNode : Condition → Renderer → Renderer
  | .expr ⟨left, op, right⟩, r => right.render left.field? ((left.render right.field? r).pushCode op.code)
  | .list [] _, r => r
  | .list (c :: cs) op, r =>
    Condition.renderRest op cs ((c.renderNode ((r.push "(").record (.rendering c.kind))).push ")")
  | .fieldMap m, r => m.render r
  | .raw text, r => r.push text

/-- The items of a list after its first, each after the operator and in parentheses. -/
def Condition.renderRest (op : Operator) : List Condition → Renderer → Renderer
  | [], r => r
  | c :: cs, r =>
    Condition.renderRest op cs
      ((c.renderNode (((r.pushCode op.code).push "(").record (.rendering c.kind))).push ")")

/-- An operand rendered, given the name of the field on the other side, if there is one. -/
def Operand.render : Operand → Option String → Renderer → Renderer
  | .condition c, _, r => c.renderNode (r.record (.rendering c.kind))
  | .field name, _, r => r.pushName name
  | .value v, counterpart, r => r.bindValue (counterpart.bind r.schema.field?) v

end

/-- A condition rendered, and a report that it is. -/
def Condition.render (c : Condition) (r : Renderer) : Renderer := c.renderNode (r.record (.rendering c.kind))

/-- The clause and the parameters of a condition in a dialect. -/
def Condition.clauseIn (c : Condition) (s : Schema) (d : Dialect) : String × List Parameter :=
  (c.render (Renderer.new d s)).output

/-- The clause and the parameters of a condition in the standard dialect. -/
def Condition.clause (c : Condition) (s : Schema) : String × List Parameter := c.clauseIn s .standard

/-! ## Counting -/

mutual

/-- The number of parameters that rendering a condition binds, found without rendering it. -/
def Condition.parameterCount (s : Schema) : Condition → Nat
  | .expr ⟨left, _, right⟩ => left.parameterCount s + right.parameterCount s
  | .list items _ => Condition.parameterCounts s items
  | .fieldMap m => (m.selected s).length
  | .raw _ => 0

/-- The number of parameters that rendering conditions one after the other binds. -/
def Condition.parameterCounts (s : Schema) : List Condition → Nat
  | [] => 0
  | c :: cs => c.parameterCount s + Condition.parameterCounts s cs

/-- The number of parameters that rendering an operand binds. -/
def Operand.parameterCount (s : Schema) : Operand → Nat
  | .condition c => c.parameterCount s
  | .field _ => 0
  | .value _ => 1

end

/-- The number of parameters that something binds when it is rendered, found by rendering it. -/
def Renderer.countOf (render : Renderer → Renderer) (s : Schema) : Nat := (render (Renderer.forCounting s)).params.length

/-- The number of parameters of a condition, found by rendering it. -/
def Condition.countByRendering (c : Condition) (s : Schema) : Nat := Renderer.countOf c.render s

end WhereClause
