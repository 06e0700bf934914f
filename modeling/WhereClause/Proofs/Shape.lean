import WhereClause.Condition.Shape
import WhereClause.Condition.Validate
import WhereClause.Proofs.Counting

/-!
# Shape: what a clause tells of the values in it

A clause tells nothing of the values: they are bound and never written. Rendering a condition with null for each of its values
gives the same pieces with null in each slot (`Condition.pieces_shape`), and validating it finds the same
(`Condition.check_shape`). So two conditions of the same shape have the same clause and the same fields in the same places, and
they are accepted or rejected alike (`Condition.clauseWith_eq_of_shape_eq`).
-/

namespace WhereClause

/-! ## Maps with other values -/

/-- A map with null for each of its values. -/
def FieldMap.shape (m : FieldMap) : FieldMap := ⟨m.fields.map fun _ => .null, m.operator⟩

/-- The fields of a map that are rendered do not depend on its values. -/
theorem FieldMap.selected_shape (m : FieldMap) (s : Schema) : m.shape.selected s = m.selected s := by
  unfold FieldMap.selected
  congr 1
  funext f
  unfold Bindings.contains FieldMap.shape
  rw [Bindings.get?_map, Option.isSome_map]

/-- Validating a map finds the same whatever its values are. -/
theorem FieldMap.check_shape (m : FieldMap) (s : Schema) : m.shape.check s = m.check s := by
  unfold FieldMap.check FieldMap.unknown FieldMap.shape
  rw [Bindings.names_map]

/-! ## Pieces -/

/-- A piece with null for the value, if it is the place of a parameter. -/
def Piece.shape : Piece → Piece
  | .text s => .text s
  | .name s => .name s
  | .slot p => .slot ⟨p.field, .null⟩

/-- No dialect spells a value. -/
theorem Piece.spell_shape (d : Dialect) (next : Nat) (ps : List Piece) :
    Piece.spell d next (ps.map Piece.shape) = Piece.spell d next ps := by
  induction ps generalizing next with
  | nil => rfl
  | cons p ps ih =>
    cases p with
    | text s => rw [List.map_cons, Piece.shape, Piece.spell, Piece.spell, ih]
    | name s => rw [List.map_cons, Piece.shape, Piece.spell, Piece.spell, ih]
    | slot p => rw [List.map_cons, Piece.shape, Piece.spell, Piece.spell, ih]

/-- The fields of the parameters do not depend on the values. -/
theorem Piece.fields_shape (ps : List Piece) :
    (Piece.parameters (ps.map Piece.shape)).map (·.field) = (Piece.parameters ps).map (·.field) := by
  unfold Piece.parameters
  rw [List.filterMap_map, List.map_filterMap, List.map_filterMap]
  congr 1
  funext p
  cases p with
  | text s => rfl
  | name s => rfl
  | slot p => rfl

/-- Changing every piece of lists joined by a piece of text changes the lists. -/
theorem Piece.map_shape_intercalate (label : String) (pss : List (List Piece)) :
    ([Piece.text label].intercalate pss).map Piece.shape = [Piece.text label].intercalate (pss.map (·.map Piece.shape)) := by
  cases pss with
  | nil => rfl
  | cons ps pss =>
    rw [List.map_cons, intercalate_cons, intercalate_cons, List.map_append, List.map_flatMap, List.flatMap_map]
    rfl

/-- The pieces of a map with null for its values. -/
theorem FieldMap.pieces_shape (s : Schema) (comparison : Operator) (m : FieldMap) :
    m.shape.pieces s comparison = (m.pieces s comparison).map Piece.shape := by
  have hcomparison : ∀ f : Field, m.shape.comparison comparison f = (m.comparison comparison f).map Piece.shape := by
    intro f
    have hnull : (m.shape.fields.get? f.name).getD .null = Value.null := by
      unfold FieldMap.shape
      rw [Bindings.get?_map]
      cases m.fields.get? f.name with
      | none => rfl
      | some v => rfl
    unfold FieldMap.comparison
    rw [hnull]
    rfl
  unfold FieldMap.pieces Piece.operator
  rw [FieldMap.selected_shape, Piece.map_shape_intercalate, List.map_map]
  congr 1
  exact List.map_congr_left fun f _ => hcomparison f

/-! ## Conditions -/

/-- The field that an operand is does not depend on values. -/
theorem Operand.field?_shape (o : Operand) : o.shape.field? = o.field? := by
  cases o with
  | condition c => rw [Operand.shape]; rfl
  | field name => rw [Operand.shape]
  | value v => rw [Operand.shape]; rfl

mutual

/-- The pieces of a condition with null for its values are its pieces with null in each slot. -/
theorem Condition.pieces_shape (s : Schema) (comparison : Operator) : ∀ c : Condition,
    c.shape.pieces s comparison = (c.pieces s comparison).map Piece.shape
  | .expr ⟨left, op, right⟩ => by
    have hl := Operand.pieces_shape s comparison left right.field?
    have hr := Operand.pieces_shape s comparison right left.field?
    rw [Condition.shape, Condition.pieces, Condition.pieces, Operand.field?_shape, Operand.field?_shape, hl, hr,
      List.map_append, List.map_cons]
    rfl
  | .list items op => by
    rw [Condition.shape, Condition.pieces, Condition.pieces, Condition.piecesOfItems_shapes s comparison items, Piece.operator,
      Piece.map_shape_intercalate]
  | .fieldMap m => by
    rw [Condition.shape, Condition.pieces, Condition.pieces]
    exact m.pieces_shape s comparison
  | .raw text => by
    rw [Condition.shape, Condition.pieces]
    rfl

theorem Condition.piecesOfItems_shapes (s : Schema) (comparison : Operator) : ∀ cs : List Condition,
    Condition.piecesOfItems s comparison (Condition.shapes cs) =
      (Condition.piecesOfItems s comparison cs).map (·.map Piece.shape)
  | [] => by
    rw [Condition.shapes, Condition.piecesOfItems]
    rfl
  | c :: cs => by
    rw [Condition.shapes, Condition.piecesOfItems, Condition.piecesOfItems, Condition.pieces_shape s comparison c,
      Condition.piecesOfItems_shapes s comparison cs, List.map_cons, List.map_append, List.map_cons]
    rfl

theorem Operand.pieces_shape (s : Schema) (comparison : Operator) : ∀ (o : Operand) (counterpart : Option String),
    o.shape.pieces s comparison counterpart = (o.pieces s comparison counterpart).map Piece.shape
  | .condition c, _ => by
    rw [Operand.shape, Operand.pieces, Operand.pieces, Condition.pieces_shape s comparison c]
  | .field name, _ => by
    rw [Operand.shape, Operand.pieces]
    rfl
  | .value v, _ => by
    rw [Operand.shape, Operand.pieces, Operand.pieces]
    rfl

end

mutual

/-- Validating a condition finds the same whatever its values are. -/
theorem Condition.check_shape (s : Schema) : ∀ c : Condition, c.shape.check s = c.check s
  | .expr ⟨left, op, right⟩ => by
    rw [Condition.shape, Condition.check, Condition.check, Operand.check_shape s left, Operand.check_shape s right]
  | .list items op => by
    rw [Condition.shape, Condition.check, Condition.check, Condition.checkItems_shapes s items]
  | .fieldMap m => by
    rw [Condition.shape, Condition.check, Condition.check]
    exact m.check_shape s
  | .raw text => by rw [Condition.shape]

theorem Condition.checkItems_shapes (s : Schema) : ∀ cs : List Condition,
    Condition.checkItems s (Condition.shapes cs) = Condition.checkItems s cs
  | [] => by rw [Condition.shapes]
  | c :: cs => by
    rw [Condition.shapes, Condition.checkItems, Condition.checkItems, Condition.check_shape s c,
      Condition.checkItems_shapes s cs]

theorem Operand.check_shape (s : Schema) : ∀ o : Operand, o.shape.check s = o.check s
  | .condition c => by
    rw [Operand.shape, Operand.check, Operand.check, Condition.check_shape s c]
  | .field name => by rw [Operand.shape]
  | .value v => by
    rw [Operand.shape, Operand.check]
    rfl

end

/-- The clause of a condition with null for its values, and the fields of its parameters. -/
theorem Condition.clauseWith_shape (c : Condition) (s : Schema) (comparison : Operator) (d : Dialect) :
    (c.shape.clauseWith s comparison d).1 = (c.clauseWith s comparison d).1 ∧
    (c.shape.clauseWith s comparison d).2.map (·.field) = (c.clauseWith s comparison d).2.map (·.field) := by
  rw [Condition.clauseWith_eq, Condition.clauseWith_eq, Condition.pieces_shape]
  exact ⟨Piece.spell_shape d 0 _, Piece.fields_shape _⟩

/-- The number of the parameters does not depend on the values. -/
theorem Condition.parameterCount_shape (c : Condition) (s : Schema) : c.shape.parameterCount s = c.parameterCount s := by
  have h := congrArg List.length (Piece.fields_shape (c.pieces s .eq))
  rw [List.length_map, List.length_map, ← Condition.pieces_shape] at h
  rw [← Condition.length_parameters s .eq, ← Condition.length_parameters s .eq, h]

/-- Two conditions that differ in nothing but the values they hold consist of the same pieces, but for the values in the slots.
So they have the same clause, in every dialect, against every schema and with every comparison for the fields of maps; their
parameters are for the same fields, place by place; they are accepted alike or rejected for the same reason; and they count the
same number of parameters. -/
theorem Condition.clauseWith_eq_of_shape_eq {c e : Condition} (h : c.shape = e.shape) :
    (∀ (s : Schema) (comparison : Operator),
      (c.pieces s comparison).map Piece.shape = (e.pieces s comparison).map Piece.shape) ∧
    (∀ (s : Schema) (comparison : Operator) (d : Dialect),
      (c.clauseWith s comparison d).1 = (e.clauseWith s comparison d).1 ∧
      (c.clauseWith s comparison d).2.length = (e.clauseWith s comparison d).2.length ∧
      (c.clauseWith s comparison d).2.map (·.field) = (e.clauseWith s comparison d).2.map (·.field)) ∧
    (∀ s : Schema, c.validate s = e.validate s) ∧
    ∀ s : Schema, c.parameterCount s = e.parameterCount s := by
  refine ⟨fun s comparison => ?_, fun s comparison d => ?_, fun s => ?_, fun s => ?_⟩
  · rw [← Condition.pieces_shape, h, Condition.pieces_shape]
  · obtain ⟨hc, hcf⟩ := c.clauseWith_shape s comparison d
    obtain ⟨he, hef⟩ := e.clauseWith_shape s comparison d
    rw [h] at hc hcf
    have hfields := hcf.symm.trans hef
    refine ⟨hc.symm.trans he, ?_, hfields⟩
    have hlength := congrArg List.length hfields
    rwa [List.length_map, List.length_map] at hlength
  · rw [Condition.validate_eq_check, Condition.validate_eq_check, ← c.check_shape, h, e.check_shape]
  · rw [← c.parameterCount_shape, h, e.parameterCount_shape]

/-- A quote, an operator and a null in a map, and a value beside a nested condition: nothing of them shows. -/
theorem Condition.clauseWith_eq_of_shape_eq_quoted :
    let c : Condition :=
      .list [.ofFields .or [("name", .string "' OR \"id\" = $1 --"), ("ghost", .null)],
        .expr ⟨.value .null, .and, .condition (.eq "id" (.boolean true))⟩, .raw "x = y"] .and
    let e : Condition :=
      .list [.ofFields .or [("name", .null), ("ghost", .string "?")],
        .expr ⟨.value (.int 7), .and, .condition (.eq "id" .null)⟩, .raw "x = y"] .and
    c.shape = e.shape ∧
    (∀ (s : Schema) (comparison : Operator),
      (c.pieces s comparison).map Piece.shape = (e.pieces s comparison).map Piece.shape) ∧
    (∀ (s : Schema) (comparison : Operator) (d : Dialect),
      (c.clauseWith s comparison d).1 = (e.clauseWith s comparison d).1 ∧
      (c.clauseWith s comparison d).2.length = (e.clauseWith s comparison d).2.length ∧
      (c.clauseWith s comparison d).2.map (·.field) = (e.clauseWith s comparison d).2.map (·.field)) ∧
    (∀ s : Schema, c.validate s = e.validate s) ∧
    ∀ s : Schema, c.parameterCount s = e.parameterCount s := by
  intro c e
  have h : c.shape = e.shape := rfl
  exact ⟨h, Condition.clauseWith_eq_of_shape_eq h⟩

end WhereClause
