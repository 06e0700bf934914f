import WhereClause.Proofs.Spelling

/-!
# Counting: how many parameters a condition binds

The number of a condition's parameters can be found without rendering it, by adding up those of its parts. It is the number of the
slots among its pieces (`Condition.length_parameters`), so that every way of rendering binds so many
(`Condition.parameterCount_rendered`).
-/

namespace WhereClause

/-- What is picked from lists of pieces with a piece of text between them is what is picked from the lists, one after the other,
unless text is picked. -/
theorem Piece.filterMap_intercalate {α : Type} (pick : Piece → Option α) {label : String} (hlabel : pick (.text label) = none)
    (pss : List (List Piece)) :
    ([Piece.text label].intercalate pss).filterMap pick = pss.flatMap (·.filterMap pick) := by
  cases pss with
  | nil => rfl
  | cons ps pss =>
    rw [intercalate_cons, List.filterMap_append, List.flatMap_cons, List.filterMap_flatMap]
    congr 2
    funext qs
    rw [List.filterMap_cons_none hlabel]

/-- The parameters of lists of pieces with a piece of text between them are those of the lists, one after the other. -/
theorem Piece.parameters_intercalate (label : String) (pss : List (List Piece)) :
    Piece.parameters ([Piece.text label].intercalate pss) = pss.flatMap Piece.parameters :=
  Piece.filterMap_intercalate Piece.parameter? rfl pss

/-- Comparisons of fields with a code between each and the next have one parameter for each field, in the order of the fields. -/
theorem FieldMap.parameters_comparisons (m : FieldMap) (comparison : Operator) (code : String) (fs : List Field) :
    Piece.parameters ([Piece.operator code].intercalate (fs.map (m.comparison comparison))) =
      fs.map fun f => ⟨some f, (m.fields.get? f.name).getD .null⟩ := by
  unfold Piece.operator
  rw [Piece.parameters_intercalate, List.flatMap_map]
  induction fs with
  | nil => rfl
  | cons f fs ih =>
    rw [List.flatMap_cons, List.map_cons, ih]
    rfl

/-- The parameters of a map are those of its fields that the schema declares, in the schema's order. -/
theorem FieldMap.parameters_pieces (s : Schema) (comparison : Operator) (m : FieldMap) :
    Piece.parameters (m.pieces s comparison) =
      (m.selected s).map fun f => ⟨some f, (m.fields.get? f.name).getD .null⟩ :=
  m.parameters_comparisons comparison m.operator.code (m.selected s)

mutual

/-- The slots of a condition are as many as its parameters are counted. -/
theorem Condition.length_parameters (s : Schema) (comparison : Operator) : ∀ c : Condition,
    (Piece.parameters (c.pieces s comparison)).length = c.parameterCount s
  | .expr ⟨left, op, right⟩ => by
    have hl := Operand.length_parameters s comparison left right.field?
    have hr := Operand.length_parameters s comparison right left.field?
    rw [Condition.pieces, Condition.parameterCount, Piece.parameters_append, List.length_append, hl, ← hr]
    rfl
  | .list items op => by
    rw [Condition.pieces, Condition.parameterCount, ← Condition.length_parametersOfItems s comparison items, Piece.operator,
      Piece.parameters_intercalate]
  | .fieldMap m => by
    rw [Condition.pieces, Condition.parameterCount, FieldMap.parameters_pieces, List.length_map]
  | .raw text => by
    rw [Condition.pieces, Condition.parameterCount]
    rfl

/-- The slots of the items of a list are as many as their parameters are counted: parentheses bind none. -/
theorem Condition.length_parametersOfItems (s : Schema) (comparison : Operator) : ∀ cs : List Condition,
    ((Condition.piecesOfItems s comparison cs).flatMap Piece.parameters).length = Condition.parameterCounts s cs
  | [] => by
    rw [Condition.piecesOfItems, Condition.parameterCounts]
    rfl
  | c :: cs => by
    have hc := Condition.length_parameters s comparison c
    have hcs := Condition.length_parametersOfItems s comparison cs
    rw [Condition.piecesOfItems, Condition.parameterCounts, List.flatMap_cons, List.length_append, Piece.parameters_parentheses,
      hc, hcs]

theorem Operand.length_parameters (s : Schema) (comparison : Operator) : ∀ (o : Operand) (counterpart : Option String),
    (Piece.parameters (o.pieces s comparison counterpart)).length = o.parameterCount s
  | .condition c, _ => by
    rw [Operand.pieces, Operand.parameterCount, Condition.length_parameters s comparison c]
  | .field name, _ => by
    rw [Operand.pieces, Operand.parameterCount]
    rfl
  | .value v, _ => by
    rw [Operand.pieces, Operand.parameterCount]
    rfl

end

/-- Rendering a condition binds as many parameters more as are counted without rendering it, from whatever text and parameters, in
whatever dialect and with whatever comparison for the fields of maps; counting by rendering finds the same number, and every
clause of the condition has so many. -/
theorem Condition.parameterCount_rendered (c : Condition) (s : Schema) :
    (∀ (sql : String) (params : List Parameter) (log : List Event) (d : Dialect) (comparison : Operator),
      ∃ added, (c.render ⟨sql, params, log, d, s, comparison⟩).params = params ++ added ∧ added.length = c.parameterCount s) ∧
    c.countByRendering s = c.parameterCount s ∧
    (c.clause s).2.length = c.parameterCount s ∧
    ∀ d : Dialect, (c.clauseIn s d).2.length = c.parameterCount s := by
  have hclause : ∀ d : Dialect, (c.clauseIn s d).2.length = c.parameterCount s := by
    intro d
    have h : c.clauseIn s d = c.clauseWith s .eq d := rfl
    rw [h, Condition.clauseWith_eq, Condition.length_parameters]
  refine ⟨fun sql params log d comparison => ?_, hclause .standard, hclause .standard, hclause⟩
  have h := c.adds_render (r := ⟨sql, params, log, d, s, comparison⟩) ⟨rfl, rfl⟩
  exact ⟨_, h.params, c.length_parameters s comparison⟩

end WhereClause
