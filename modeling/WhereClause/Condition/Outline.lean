import WhereClause.Clause.Token
import WhereClause.Condition.Render

/-!
# Outline: the tokens of a condition from left to right

The outline of a condition without text of the caller's is what its clause should read as: the names, operators, parentheses and
placeholders, as one meets them when going through the condition from left to right. Its placeholders have no numbers.
-/

namespace WhereClause

/-- A field compared with a placeholder. -/
def Token.comparison (comparison : Operator) (f : Field) : List Token :=
  [.name f.name, .operator comparison, .placeholder none]

/-- The tokens of a map: its fields that the schema declares, in the schema's order. -/
def FieldMap.outline (s : Schema) (comparison : Operator) (m : FieldMap) : List Token :=
  [Token.operator m.operator].intercalate ((m.selected s).map (Token.comparison comparison))

mutual

/-- The tokens of a condition; text of the caller's has none. -/
def Condition.outline (s : Schema) (comparison : Operator) : Condition → List Token
  | .expr ⟨left, op, right⟩ => left.outline s comparison ++ .operator op :: right.outline s comparison
  | .list items op => [Token.operator op].intercalate (Condition.outlineItems s comparison items)
  | .fieldMap m => m.outline s comparison
  | .raw _ => []

/-- The tokens of each item of a list, with its parentheses. -/
def Condition.outlineItems (s : Schema) (comparison : Operator) : List Condition → List (List Token)
  | [] => []
  | c :: cs => (.opening :: c.outline s comparison ++ [.closing]) :: Condition.outlineItems s comparison cs

/-- The tokens of an operand. -/
def Operand.outline (s : Schema) (comparison : Operator) : Operand → List Token
  | .condition c => c.outline s comparison
  | .field name => [.name name]
  | .value _ => [.placeholder none]

end

end WhereClause
