import WhereClause.Clause.Piece
import WhereClause.Condition.Render

/-!
# Pieces: what the clause of a condition consists of

The pieces of a condition depend on the condition, the schema and the comparison for maps of fields, and not on the dialect
nor on what has been written before. They are given here part by part, with no renderer in between.
-/

namespace WhereClause

/-- A field compared with its value; null stands for a value that is not given. -/
def FieldMap.comparison (m : FieldMap) (comparison : Operator) (f : Field) : List Piece :=
  [.name f.name, .operator comparison.code, .slot ⟨some f, (m.fields.get? f.name).getD .null⟩]

/-- The pieces of a map: a comparison for each of its fields that the schema declares, the map's operator between them. -/
def FieldMap.pieces (s : Schema) (comparison : Operator) (m : FieldMap) : List Piece :=
  [Piece.operator m.operator.code].intercalate ((m.selected s).map (m.comparison comparison))

mutual

/-- The pieces of a condition. -/
def Condition.pieces (s : Schema) (comparison : Operator) : Condition → List Piece
  | .expr ⟨left, op, right⟩ =>
    left.pieces s comparison right.field? ++ .operator op.code :: right.pieces s comparison left.field?
  | .list items op => [Piece.operator op.code].intercalate (Condition.piecesOfItems s comparison items)
  | .fieldMap m => m.pieces s comparison
  | .raw text => [.text text]

/-- The pieces of each item of a list, in parentheses. -/
def Condition.piecesOfItems (s : Schema) (comparison : Operator) : List Condition → List (List Piece)
  | [] => []
  | c :: cs => (.text "(" :: c.pieces s comparison ++ [.text ")"]) :: Condition.piecesOfItems s comparison cs

/-- The pieces of an operand, given the name of the field on the other side, if there is one. -/
def Operand.pieces (s : Schema) (comparison : Operator) : Operand → Option String → List Piece
  | .condition c, _ => c.pieces s comparison
  | .field name, _ => [.name name]
  | .value v, counterpart => [.slot ⟨counterpart.bind s.field?, v⟩]

end

end WhereClause
