import WhereClause.Condition.Pieces

/-!
# Spelling: what rendering adds to a renderer

Rendering a condition adds its pieces and does nothing else to the text and the parameters: the pieces are spelled by the
renderer's dialect after the text that is there, the slots numbered on from the parameters that are there, and each slot binds
its parameter (`Condition.adds_render`). This holds from any renderer, which is what carries the induction: the items of a list
and the sides of an expression are rendered where the ones before them left off.

So dialects differ in nothing but how they spell the same pieces (`Condition.render_pieces`).
-/

namespace WhereClause

theorem intercalate_cons {α : Type} (x : α) (l : List α) (ls : List (List α)) :
    [x].intercalate (l :: ls) = l ++ ls.flatMap (x :: ·) := by
  induction ls generalizing l with
  | nil => simp
  | cons k ls ih => rw [List.intercalate_cons_cons, ih k]; simp

/-! ## Adding pieces -/

/-- A renderer that renders against a schema, with a comparison for the fields of maps. -/
def Renderer.Serves (s : Schema) (comparison : Operator) (r : Renderer) : Prop := r.schema = s ∧ r.comparison = comparison

/-- A renderer is another with pieces added: spelled after its text, the slots numbered on from its parameters, and bound after
those, with nothing that stays the same throughout changed. -/
structure Renderer.Adds (r : Renderer) (pieces : List Piece) (r' : Renderer) : Prop where
  sql : r'.sql = r.sql ++ Piece.spell r.dialect r.params.length pieces
  params : r'.params = r.params ++ Piece.parameters pieces
  dialect : r'.dialect = r.dialect
  schema : r'.schema = r.schema
  comparison : r'.comparison = r.comparison

theorem Piece.parameters_append (ps qs : List Piece) :
    Piece.parameters (ps ++ qs) = Piece.parameters ps ++ Piece.parameters qs := by
  simp only [Piece.parameters, List.filterMap_append]

theorem Piece.parameters_parentheses (ps : List Piece) :
    Piece.parameters (.text "(" :: ps ++ [.text ")"]) = Piece.parameters ps :=
  (Piece.parameters_append (.text "(" :: ps) _).trans (List.append_nil _)

/-- Pieces added keep what a renderer renders against. -/
theorem Renderer.Adds.serves {r r' : Renderer} {ps : List Piece} {s : Schema} {comparison : Operator} (h : r.Adds ps r')
    (hr : r.Serves s comparison) : r'.Serves s comparison :=
  ⟨h.schema.trans hr.1, h.comparison.trans hr.2⟩

theorem Renderer.Adds.trans {r r' r'' : Renderer} {ps qs : List Piece} (h : r.Adds ps r') (h' : r'.Adds qs r'') :
    r.Adds (ps ++ qs) r'' := by
  refine ⟨?_, ?_, h'.dialect.trans h.dialect, h'.schema.trans h.schema, h'.comparison.trans h.comparison⟩
  · have hn : r'.params.length = r.params.length + (Piece.parameters ps).length := by rw [h.params, List.length_append]
    rw [h'.sql, h.sql, h.dialect, hn, Piece.spell_append, String.append_assoc]
  · rw [h'.params, h.params, Piece.parameters_append, List.append_assoc]

/-! ## What each step adds -/

theorem Renderer.adds_nil (r : Renderer) : r.Adds [] r :=
  ⟨by simp [Piece.spell], by simp [Piece.parameters], rfl, rfl, rfl⟩

theorem Renderer.adds_record (r : Renderer) (event : Event) : r.Adds [] (r.record event) :=
  ⟨by simp [Renderer.record, Piece.spell], by simp [Renderer.record, Piece.parameters], rfl, rfl, rfl⟩

theorem Renderer.adds_push (r : Renderer) (text : String) : r.Adds [.text text] (r.push text) :=
  ⟨by simp [Renderer.push, Piece.spell], by simp [Renderer.push, Piece.parameters, Piece.parameter?], rfl, rfl, rfl⟩

theorem Renderer.adds_pushName (r : Renderer) (name : String) : r.Adds [.name name] (r.pushName name) :=
  ⟨by simp [Renderer.pushName, Renderer.push, Piece.spell],
    by simp [Renderer.pushName, Renderer.push, Piece.parameters, Piece.parameter?], rfl, rfl, rfl⟩

theorem Renderer.adds_pushCode (r : Renderer) (code : String) : r.Adds [.operator code] (r.pushCode code) :=
  r.adds_push (" " ++ code ++ " ")

theorem Renderer.adds_bindValue (r : Renderer) (field : Option Field) (v : Value) :
    r.Adds [.slot ⟨field, v⟩] (r.bindValue field v) :=
  ⟨by simp [Renderer.bindValue, Piece.spell], by simp [Renderer.bindValue, Piece.parameters, Piece.parameter?], rfl, rfl, rfl⟩

/-! ## Maps -/

theorem Renderer.adds_pushField (comparison : Operator) (m : FieldMap) (r : Renderer) (f : Field) :
    r.Adds (m.comparison comparison f) (Renderer.pushField comparison m.fields r f) :=
  ((r.adds_pushName f.name).trans (Renderer.adds_pushCode _ comparison.code)).trans
    (Renderer.adds_bindValue _ (some f) ((m.fields.get? f.name).getD .null))

/-- Fields that follow others add their comparisons, each after the code. -/
theorem Renderer.adds_foldl_pushField (comparison : Operator) (m : FieldMap) (code : String) (fs : List Field) (r : Renderer) :
    r.Adds (fs.flatMap fun f => .operator code :: m.comparison comparison f)
      (fs.foldl (fun r f => Renderer.pushField comparison m.fields (r.pushCode code) f) r) := by
  induction fs generalizing r with
  | nil => exact r.adds_nil
  | cons f fs ih =>
    rw [List.flatMap_cons, List.foldl_cons]
    exact ((r.adds_pushCode code).trans (Renderer.adds_pushField comparison m _ f)).trans (ih _)

/-- Fields of a map add their comparisons, with the code between each and the next. -/
theorem Renderer.adds_pushFields (comparison : Operator) (m : FieldMap) (code : String) (r : Renderer) (fs : List Field) :
    r.Adds ([Piece.operator code].intercalate (fs.map (m.comparison comparison)))
      (Renderer.pushFields comparison m.fields code r fs) := by
  cases fs with
  | nil => exact Renderer.adds_foldl_pushField comparison m code [] r
  | cons f fs =>
    rw [List.map_cons, intercalate_cons, List.flatMap_map]
    exact (r.adds_pushField comparison m f).trans (Renderer.adds_foldl_pushField comparison m code fs _)

/-- A map adds its pieces, whether or not fields left out are reported. -/
theorem FieldMap.adds_render (m : FieldMap) {s : Schema} {comparison : Operator} {r : Renderer} (hr : r.Serves s comparison) :
    r.Adds (m.pieces s comparison) (m.render r) := by
  have h : r.Adds [] (if (m.selected s).length < m.fields.size then r.record (.skipping s.entityName (m.unknown s)) else r) := by
    split
    · exact r.adds_record _
    · exact r.adds_nil
  unfold FieldMap.render FieldMap.pieces
  simp only [hr.1]
  rw [(h.serves hr).2]
  exact h.trans (Renderer.adds_pushFields comparison m m.operator.code _ (m.selected s))

/-! ## Conditions -/

mutual

/-- A condition adds its pieces, from wherever the renderer stands. -/
theorem Condition.adds_renderNode {s : Schema} {comparison : Operator} : ∀ (c : Condition) {r : Renderer},
    r.Serves s comparison → r.Adds (c.pieces s comparison) (c.renderNode r)
  | .expr ⟨left, op, right⟩, r, hr => by
    have hl := (Operand.adds_render left right.field? hr).trans (Renderer.adds_pushCode _ op.code)
    have := hl.trans (Operand.adds_render right left.field? (hl.serves hr))
    simpa only [Condition.pieces, Condition.renderNode, List.append_assoc, List.singleton_append] using this
  | .list [] op, r, hr => by
    simp only [Condition.pieces, Condition.piecesOfItems, List.intercalate_nil, Condition.renderNode]
    exact r.adds_nil
  | .list (c :: cs) op, r, hr => by
    have ho := (r.adds_push "(").trans (Renderer.adds_record _ (.rendering c.kind))
    have hc := (ho.trans (Condition.adds_renderNode c (ho.serves hr))).trans (Renderer.adds_push _ ")")
    have := hc.trans (Condition.adds_renderRest op cs (hc.serves hr))
    simpa only [Condition.pieces, Condition.piecesOfItems, intercalate_cons, Condition.renderNode, List.append_nil,
      List.cons_append, List.nil_append] using this
  | .fieldMap m, r, hr => by
    simp only [Condition.pieces, Condition.renderNode]
    exact m.adds_render hr
  | .raw text, r, hr => by
    simp only [Condition.pieces, Condition.renderNode]
    exact r.adds_push text

/-- The items of a list after its first add their pieces, each after the operator. -/
theorem Condition.adds_renderRest {s : Schema} {comparison : Operator} (op : Operator) : ∀ (cs : List Condition) {r : Renderer},
    r.Serves s comparison →
      r.Adds ((Condition.piecesOfItems s comparison cs).flatMap (.operator op.code :: ·)) (Condition.renderRest op cs r)
  | [], r, hr => by
    simp only [Condition.piecesOfItems, List.flatMap_nil, Condition.renderRest]
    exact r.adds_nil
  | c :: cs, r, hr => by
    have ho := ((r.adds_pushCode op.code).trans (Renderer.adds_push _ "(")).trans (Renderer.adds_record _ (.rendering c.kind))
    have hc := (ho.trans (Condition.adds_renderNode c (ho.serves hr))).trans (Renderer.adds_push _ ")")
    have := hc.trans (Condition.adds_renderRest op cs (hc.serves hr))
    simpa only [Condition.piecesOfItems, List.flatMap_cons, Condition.renderRest, List.append_nil, List.cons_append,
      List.nil_append] using this

theorem Operand.adds_render {s : Schema} {comparison : Operator} : ∀ (o : Operand) (counterpart : Option String) {r : Renderer},
    r.Serves s comparison → r.Adds (o.pieces s comparison counterpart) (o.render counterpart r)
  | .condition c, _, r, hr => by
    have ho := r.adds_record (.rendering c.kind)
    simp only [Operand.pieces, Operand.render]
    exact ho.trans (Condition.adds_renderNode c (ho.serves hr))
  | .field name, _, r, hr => by
    simp only [Operand.pieces, Operand.render]
    exact r.adds_pushName name
  | .value v, counterpart, r, hr => by
    simp only [Operand.pieces, Operand.render]
    rw [← hr.1]
    exact r.adds_bindValue (counterpart.bind r.schema.field?) v

end

/-- A condition adds its pieces; the report that it is rendered adds none. -/
theorem Condition.adds_render (c : Condition) {s : Schema} {comparison : Operator} {r : Renderer} (hr : r.Serves s comparison) :
    r.Adds (c.pieces s comparison) (c.render r) :=
  (r.adds_record (.rendering c.kind)).trans (c.adds_renderNode ((r.adds_record _).serves hr))

/-! ## Clauses -/

/-- The clause and the parameters of a condition in a dialect, with a comparison for the fields of maps. -/
def Condition.clauseWith (c : Condition) (s : Schema) (comparison : Operator) (d : Dialect) : String × List Parameter :=
  (c.render ((Renderer.new d s).withComparison comparison)).output

/-- The clause of a condition spells its pieces, numbered from the first, and its parameters are theirs. -/
theorem Condition.clauseWith_eq (c : Condition) (s : Schema) (comparison : Operator) (d : Dialect) :
    c.clauseWith s comparison d = (Piece.spell d 0 (c.pieces s comparison), Piece.parameters (c.pieces s comparison)) := by
  have h := c.adds_render (r := (Renderer.new d s).withComparison comparison) ⟨rfl, rfl⟩
  unfold Condition.clauseWith Renderer.output
  rw [h.sql, h.params]
  simp [Renderer.withComparison, Renderer.new]

/-- Pieces with a text in the place of each slot, one after the other, and names as a dialect spells them. -/
def Piece.fill (d : Dialect) : List String → List Piece → String
  | _, [] => ""
  | texts, .text s :: rest => s ++ Piece.fill d texts rest
  | texts, .name s :: rest => d.identifier s ++ Piece.fill d texts rest
  | [], .slot _ :: rest => Piece.fill d [] rest
  | t :: texts, .slot _ :: rest => t ++ Piece.fill d texts rest

/-- Spelling pieces fills their slots with the placeholders that follow each other from a number on. -/
theorem Piece.spell_eq_fill (d : Dialect) (next : Nat) (ps : List Piece) :
    Piece.spell d next ps = Piece.fill d ((List.range' next (Piece.parameters ps).length).map d.placeholder) ps := by
  induction ps generalizing next with
  | nil => rw [Piece.spell, Piece.fill]
  | cons p ps ih =>
    cases p with
    | text s => rw [Piece.spell, Piece.fill, ih]; rfl
    | name s => rw [Piece.spell, Piece.fill, ih]; rfl
    | slot p =>
      have hp : Piece.parameters (.slot p :: ps) = p :: Piece.parameters ps := rfl
      rw [Piece.spell, hp, List.length_cons, List.range'_succ, List.map_cons, Piece.fill, ih]

/-- There is one sequence of pieces for a condition, a schema and a comparison. From whatever text and parameters a renderer
starts, and in whatever dialect, rendering leaves them as they are and adds the pieces after them, the slots numbered on from
the parameters and each bound in its place. So all dialects have the same parameters, and in PostgreSQL the slots of a clause read
`$1`, `$2` and so on to the number of the parameters. -/
theorem Condition.render_pieces (c : Condition) (s : Schema) (comparison : Operator) :
    (∀ (sql : String) (params : List Parameter) (log : List Event) (d : Dialect),
      (c.render ⟨sql, params, log, d, s, comparison⟩).output =
        (sql ++ Piece.spell d params.length (c.pieces s comparison), params ++ Piece.parameters (c.pieces s comparison))) ∧
    (∀ d e : Dialect, (c.clauseWith s comparison d).2 = (c.clauseWith s comparison e).2) ∧
    (c.clauseWith s comparison .postgres).1 =
      Piece.fill .postgres
        ((List.range (c.clauseWith s comparison .postgres).2.length).map fun i => "$" ++ toString (i + 1))
        (c.pieces s comparison) := by
  refine ⟨fun sql params log d => ?_, fun d e => ?_, ?_⟩
  · have h := c.adds_render (r := ⟨sql, params, log, d, s, comparison⟩) ⟨rfl, rfl⟩
    unfold Renderer.output
    rw [h.sql, h.params]
  · rw [Condition.clauseWith_eq, Condition.clauseWith_eq]
  · rw [Condition.clauseWith_eq, Piece.spell_eq_fill, ← List.range_eq_range']
    rfl

end WhereClause
