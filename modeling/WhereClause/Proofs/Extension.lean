import WhereClause.Proofs.Acceptance
import WhereClause.Proofs.Lookup

/-!
# Extension: more fields than a condition asks for

An entity schema is extended by declaring further fields anywhere among its own. All positions shift, so that nothing said of
positions stays true; what stays is that a declared name stands for the same field (`Schema.field?_extended`), and that the fields
rendered for a map are the same in the same order (`FieldMap.selected_extended`): the order among the old fields is kept, and no
name of the map is left for a new field. So a condition that was accepted is accepted still, and compiled to the same clause with
the same parameters (`Condition.render_extended`).

A condition that was not accepted can be compiled to something else: a map of a field that was left out has it rendered when it is
declared.
-/

namespace WhereClause

section Extended

variable {s e : EntitySchema}

/-! ## Names -/

/-- A name that is declared is declared by an extension. -/
theorem Schema.hasField_extended (h : s.fields.Sublist e.fields) {name : String}
    (hname : (Schema.entity s).hasField name = true) : (Schema.entity e).hasField name = true := by
  rw [Schema.hasField_iff, Schema.fields_entity] at hname ⊢
  exact (h.map _).subset hname

/-- A name that is declared stands for the same field in an extension. -/
theorem Schema.field?_extended (h : s.fields.Sublist e.fields) {name : String}
    (hname : (Schema.entity s).hasField name = true) : (Schema.entity e).field? name = (Schema.entity s).field? name := by
  obtain ⟨f, hf⟩ := Option.isSome_iff_exists.1 hname
  obtain ⟨hmem, hfname, -⟩ := (s.field?_eq_some_iff name f).1 hf
  have hunique : ∀ g ∈ e.fields, g.name = name → g = f :=
    fun g hg hgname => List.inj_on_of_nodup_map e.nodup_names hg (h.subset hmem) (hgname.trans hfname.symm)
  rw [hf]
  exact (e.field?_eq_some_iff name f).2 ⟨h.subset hmem, hfname, hunique⟩

/-! ## Maps -/

/-- An accepted map is accepted by an extension. -/
theorem FieldMap.check_extended (h : s.fields.Sublist e.fields) {m : FieldMap} (hm : m.check (.entity s) = .ok ()) :
    m.check (.entity e) = .ok () := by
  rw [FieldMap.check_eq_ok_iff, Schema.hasFields_iff] at hm ⊢
  intro name hname
  exact (Schema.hasField_iff _ _).1 (Schema.hasField_extended h ((Schema.hasField_iff _ _).2 (hm name hname)))

/-- The fields rendered for an accepted map are the same in an extension, in the same order: there are no more of them, because
there are as many as the map has names. -/
theorem FieldMap.selected_extended (h : s.fields.Sublist e.fields) {m : FieldMap} (hm : m.check (.entity s) = .ok ()) :
    m.selected (.entity e) = m.selected (.entity s) := by
  have hsublist : (m.selected (.entity s)).Sublist (m.selected (.entity e)) := by
    rw [FieldMap.selected, FieldMap.selected, Schema.fields_entity, Schema.fields_entity]
    exact h.filter _
  -- as many as the map has names, before and after: this is where the map has to be accepted
  have hlength : (m.selected (.entity s)).length = (m.selected (.entity e)).length := by
    have hold := (FieldMap.names_selected_perm hm).length_eq
    have hnew := (FieldMap.names_selected_perm (m.check_extended h hm)).length_eq
    rw [List.length_map] at hold hnew
    exact hold.trans hnew.symm
  exact (hsublist.eq_of_length hlength).symm

/-! ## Conditions -/

mutual

/-- An accepted condition has the same pieces in an extension. -/
theorem Condition.pieces_extended (h : s.fields.Sublist e.fields) (comparison : Operator) : ∀ c : Condition,
    c.check (.entity s) = .ok () → c.pieces (.entity e) comparison = c.pieces (.entity s) comparison
  | .expr ⟨left, op, right⟩, hc => by
    rw [Condition.check, seq_eq_ok_iff] at hc
    have hl := Operand.pieces_extended h comparison left right.field? hc.1 (Operand.hasField_of_check hc.2)
    have hr := Operand.pieces_extended h comparison right left.field? hc.2 (Operand.hasField_of_check hc.1)
    rw [Condition.pieces, Condition.pieces, hl, hr]
  | .list items op, hc => by
    rw [Condition.check] at hc
    rw [Condition.pieces, Condition.pieces, Condition.piecesOfItems_extended h comparison items hc]
  | .fieldMap m, hc => by
    rw [Condition.check] at hc
    rw [Condition.pieces, Condition.pieces, FieldMap.pieces, FieldMap.pieces, FieldMap.selected_extended h hc]
  | .raw text, _ => by rw [Condition.pieces, Condition.pieces]

theorem Condition.piecesOfItems_extended (h : s.fields.Sublist e.fields) (comparison : Operator) : ∀ cs : List Condition,
    Condition.checkItems (.entity s) cs = .ok () →
      Condition.piecesOfItems (.entity e) comparison cs = Condition.piecesOfItems (.entity s) comparison cs
  | [], _ => by rw [Condition.piecesOfItems, Condition.piecesOfItems]
  | c :: cs, hcs => by
    rw [Condition.checkItems, seq_eq_ok_iff] at hcs
    rw [Condition.piecesOfItems, Condition.piecesOfItems, Condition.pieces_extended h comparison c hcs.1,
      Condition.piecesOfItems_extended h comparison cs hcs.2]

/-- An accepted operand has the same pieces in an extension, beside a field that is declared. -/
theorem Operand.pieces_extended (h : s.fields.Sublist e.fields) (comparison : Operator) :
    ∀ (o : Operand) (counterpart : Option String), o.check (.entity s) = .ok () →
      (∀ name, counterpart = some name → (Schema.entity s).hasField name = true) →
      o.pieces (.entity e) comparison counterpart = o.pieces (.entity s) comparison counterpart
  | .condition c, _, ho, _ => by
    rw [Operand.check] at ho
    rw [Operand.pieces, Operand.pieces, Condition.pieces_extended h comparison c ho]
  | .field name, _, _, _ => by rw [Operand.pieces, Operand.pieces]
  | .value v, counterpart, _, hcounterpart => by
    rw [Operand.pieces, Operand.pieces]
    cases counterpart with
    | none => rfl
    | some name => rw [Option.bind_some, Option.bind_some, Schema.field?_extended h (hcounterpart name rfl)]

end

/-- An accepted condition is accepted by an extension. What it writes is declared still, and no map in it has lost a name. -/
theorem Condition.check_extended (h : s.fields.Sublist e.fields) {c : Condition} (hc : c.check (.entity s) = .ok ()) :
    c.check (.entity e) = .ok () := by
  have hold : Condition.Faithful (.entity s) .eq (Piece.names (c.pieces (.entity s) .eq)) c.nodes := c.check_eq_ok_iff.1 hc
  have hnew : Condition.Faithful (.entity e) .eq (Piece.names (c.pieces (.entity e) .eq)) c.nodes := by
    rw [Condition.pieces_extended h .eq c hc]
    constructor
    · intro name hname
      rw [← Schema.hasField_iff]
      exact Schema.hasField_extended h ((Schema.hasField_iff _ _).2 (hold.declared name hname))
    · intro m hm name hname
      rw [FieldMap.pieces, FieldMap.selected_extended h (FieldMap.check_of_mem_nodes hc hm)]
      exact hold.complete m hm name hname
  exact c.check_eq_ok_iff.2 hnew

end Extended

/-- A condition that an entity schema accepts is accepted by every schema that declares the same fields in the same order and any
others among them. It has as many parameters there, and rendering it adds the same text and the same parameters, from whatever
text and parameters, in whatever dialect and with whatever comparison for the fields of maps; so it is compiled to the same. -/
theorem Condition.render_extended (c : Condition) (s e : EntitySchema) (h : s.fields.Sublist e.fields)
    (hv : c.validate (.entity s) = .ok ()) :
    c.validate (.entity e) = .ok () ∧
    c.parameterCount (.entity e) = c.parameterCount (.entity s) ∧
    (∀ (sql : String) (params : List Parameter) (log log' : List Event) (d : Dialect) (comparison : Operator),
      (c.render ⟨sql, params, log, d, .entity e, comparison⟩).output =
        (c.render ⟨sql, params, log', d, .entity s, comparison⟩).output) ∧
    ∀ k : Compiler, k.compile c (.entity e) = k.compile c (.entity s) := by
  rw [Condition.validate_eq_check] at hv
  have hvalid : c.validate (.entity e) = .ok () := (c.validate_eq_check _).trans (Condition.check_extended h hv)
  have hpieces := fun comparison => Condition.pieces_extended h comparison c hv
  refine ⟨hvalid, ?_, fun sql params log log' d comparison => ?_, fun k => ?_⟩
  · rw [← Condition.length_parameters (.entity e) .eq, ← Condition.length_parameters (.entity s) .eq, hpieces .eq]
  · rw [(c.render_pieces (.entity e) comparison).1, (c.render_pieces (.entity s) comparison).1, hpieces comparison]
  · let out : Compiled := ⟨(c.clauseWith (.entity s) k.comparison k.settings.dialect).1,
      (c.clauseWith (.entity s) k.comparison k.settings.dialect).2⟩
    have hold : k.compile c (.entity s) = .ok out :=
      (k.compile_eq_ok_iff c _ out).2 ⟨fun _ => (c.validate_eq_check _).trans hv, rfl⟩
    have hclause : (out.clause, out.params) = c.clauseWith (.entity e) k.comparison k.settings.dialect := by
      rw [Condition.clauseWith_eq c (.entity e), hpieces k.comparison, ← Condition.clauseWith_eq c (.entity s)]
    rw [hold]
    exact (k.compile_eq_ok_iff c _ out).2 ⟨fun _ => hvalid, hclause⟩

/-- Two fields with others before, between and after them, in a schema of another name, and a condition with a map of the two in
another order than theirs and with a value compared with one of them. -/
theorem Condition.render_extended_between :
    ∃ s e, EntitySchema.ofFields "person" [⟨"name", .varChar⟩, ⟨"id", .long⟩] = .ok s ∧
      EntitySchema.ofFields "people"
        [⟨"status", .char⟩, ⟨"name", .varChar⟩, ⟨"age", .int⟩, ⟨"id", .long⟩, ⟨"email", .varChar⟩] = .ok e ∧
      let c : Condition := .list
        [.ofFields .and [("id", .int 1), ("name", .string "x")], .expr ⟨.value (.int 2), .lt, .field "id"⟩, .raw "?"] .or
      s.fields.Sublist e.fields ∧ c.validate (.entity s) = .ok () ∧
      c.validate (.entity e) = .ok () ∧
      c.parameterCount (.entity e) = c.parameterCount (.entity s) ∧
      (∀ (sql : String) (params : List Parameter) (log log' : List Event) (d : Dialect) (comparison : Operator),
        (c.render ⟨sql, params, log, d, .entity e, comparison⟩).output =
          (c.render ⟨sql, params, log', d, .entity s, comparison⟩).output) ∧
      ∀ k : Compiler, k.compile c (.entity e) = k.compile c (.entity s) := by
  refine ⟨_, _, rfl, rfl, ?_⟩
  intro c
  have hfields : List.Sublist [(⟨"name", .varChar⟩ : Field), ⟨"id", .long⟩]
      [⟨"status", .char⟩, ⟨"name", .varChar⟩, ⟨"age", .int⟩, ⟨"id", .long⟩, ⟨"email", .varChar⟩] := by decide
  exact ⟨hfields, rfl, Condition.render_extended c _ _ hfields rfl⟩

/-- A map of a field that is not declared is rendered as nothing, and as an equation where the field is declared. -/
example :
    ∃ s e, EntitySchema.ofFields "t" [⟨"a", .int⟩] = .ok s ∧ EntitySchema.ofFields "t" [⟨"a", .int⟩, ⟨"b", .int⟩] = .ok e ∧
      let c : Condition := .ofFields .and [("b", .int 1)]
      c.clause (.entity s) = ("", []) ∧ c.clause (.entity e) = ("b = ?", [⟨some ⟨"b", .int⟩, .int 1⟩]) :=
  ⟨_, _, rfl, rfl, rfl, rfl⟩

end WhereClause
