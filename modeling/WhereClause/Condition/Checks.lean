import WhereClause.Condition.Validate

/-!
# Checks: what a condition asks of a schema

A condition asks of a schema that every field standing as an operand is declared, and for every map that all its fields are.
Here these are listed from left to right, and each is tried against the fields of the schema gone through one by one.
-/

namespace WhereClause

/-- Something that a condition asks of a schema. -/
inductive Check where
  /-- A field standing as an operand is declared. -/
  | operand (name : String)
  /-- Every field of a map is declared. -/
  | map (m : FieldMap)

mutual

/-- What a condition asks, from left to right. -/
def Condition.checks : Condition → List Check
  | .expr ⟨left, _, right⟩ => left.checks ++ right.checks
  | .list items _ => Condition.checksOf items
  | .fieldMap m => [.map m]
  | .raw _ => []

/-- What conditions ask, one after the other. -/
def Condition.checksOf : List Condition → List Check
  | [] => []
  | c :: cs => c.checks ++ Condition.checksOf cs

/-- What an operand asks. -/
def Operand.checks : Operand → List Check
  | .condition c => c.checks
  | .field name => [.operand name]
  | .value _ => []

end

/-- Whether one of the fields of a schema has a name. -/
def Schema.declares (s : Schema) (name : String) : Bool := s.fields.any fun f => f.name == name

/-- The rejection that a check comes to against a schema; none if it passes. -/
def Check.rejection? (s : Schema) : Check → Option Rejection
  | .operand name => if s.declares name then none else some (.unknownField s.entityName name)
  | .map m =>
    let unknown := m.fields.names.filter fun name => !s.declares name
    if unknown.isEmpty then none else some (.unknownFields s.entityName unknown)

end WhereClause
