import Mathlib.Data.List.Forall2
import WhereClause.Compiler
import WhereClause.Condition.Comparands
import WhereClause.Condition.Nodes
import WhereClause.Proofs.Counting
import WhereClause.Proofs.Declared

/-!
# Acceptance: what it means that a condition is accepted

Rendering never fails: it writes names that the schema does not declare, and it leaves out the fields of a map that it does not
declare. A condition is accepted exactly where neither happens (`Condition.check_eq_ok_iff`). Then each of its values is bound
to what it is compared with: the place of a value compared with a field has that field of the schema
(`Condition.binds_comparands`), and no value of a map is without its place (`FieldMap.mem_comparands`).
-/

namespace WhereClause

/-! ## Names that are written -/

theorem Piece.names_append (ps qs : List Piece) : Piece.names (ps ++ qs) = Piece.names ps ++ Piece.names qs :=
  List.filterMap_append

theorem Piece.names_parentheses (ps : List Piece) : Piece.names (.text "(" :: ps ++ [.text ")"]) = Piece.names ps :=
  (Piece.names_append (.text "(" :: ps) _).trans (List.append_nil _)

/-- The names of lists of pieces with a piece of text between them are those of the lists, one after the other. -/
theorem Piece.names_intercalate (label : String) (pss : List (List Piece)) :
    Piece.names ([Piece.text label].intercalate pss) = pss.flatMap Piece.names :=
  Piece.filterMap_intercalate Piece.name? rfl pss

/-- A map writes the names of its fields that the schema declares, in the schema's order. -/
theorem FieldMap.names_pieces (s : Schema) (comparison : Operator) (m : FieldMap) :
    Piece.names (m.pieces s comparison) = (m.selected s).map (·.name) := by
  unfold FieldMap.pieces Piece.operator
  rw [Piece.names_intercalate, List.flatMap_map]
  induction m.selected s with
  | nil => rfl
  | cons f fs ih =>
    rw [List.flatMap_cons, List.map_cons, ih]
    rfl

/-! ## Faithful rendering -/

/-- What is written is faithful: every name that is written is the name of a field that the schema declares, and every map among
the nodes has all its names written. -/
structure Condition.Faithful (s : Schema) (comparison : Operator) (written : List String) (nodes : List Condition) : Prop where
  declared : ∀ name ∈ written, name ∈ s.fields.map (·.name)
  complete : ∀ m, .fieldMap m ∈ nodes → ∀ name ∈ m.fields.names, name ∈ Piece.names (m.pieces s comparison)

section Faithful

variable {s : Schema} {comparison : Operator}

theorem Condition.faithful_nil : Condition.Faithful s comparison [] [] :=
  ⟨fun _ h => absurd h List.not_mem_nil, fun _ h => absurd h List.not_mem_nil⟩

theorem Condition.faithful_append {written written' : List String} {nodes nodes' : List Condition} :
    Condition.Faithful s comparison (written ++ written') (nodes ++ nodes') ↔
      Condition.Faithful s comparison written nodes ∧ Condition.Faithful s comparison written' nodes' := by
  constructor
  · intro h
    exact ⟨⟨fun name hname => h.declared name (List.mem_append_left _ hname),
        fun m hm => h.complete m (List.mem_append_left _ hm)⟩,
      ⟨fun name hname => h.declared name (List.mem_append_right _ hname),
        fun m hm => h.complete m (List.mem_append_right _ hm)⟩⟩
  · rintro ⟨h, h'⟩
    constructor
    · intro name hname
      rcases List.mem_append.1 hname with hname | hname
      · exact h.declared name hname
      · exact h'.declared name hname
    · intro m hm
      rcases List.mem_append.1 hm with hm | hm
      · exact h.complete m hm
      · exact h'.complete m hm

/-- A node that is no map has no names of its own to be written. -/
theorem Condition.faithful_cons {written : List String} {c : Condition} {nodes : List Condition} (hc : c.kind ≠ .fieldMap) :
    Condition.Faithful s comparison written (c :: nodes) ↔ Condition.Faithful s comparison written nodes := by
  constructor
  · exact fun h => ⟨h.declared, fun m hm => h.complete m (List.mem_cons_of_mem _ hm)⟩
  · intro h
    refine ⟨h.declared, fun m hm => ?_⟩
    rcases List.mem_cons.1 hm with rfl | hm
    · exact absurd rfl hc
    · exact h.complete m hm

/-- A map is accepted exactly when it is rendered faithfully: what it writes is always declared, but it may leave names out. -/
theorem FieldMap.check_eq_ok_iff_faithful (m : FieldMap) :
    m.check s = .ok () ↔ Condition.Faithful s comparison (Piece.names (m.pieces s comparison)) [.fieldMap m] := by
  rw [FieldMap.check_eq_ok_iff, Schema.hasFields_iff]
  constructor
  · intro h
    constructor
    · intro name hname
      rw [FieldMap.names_pieces, FieldMap.mem_names_selected_iff] at hname
      exact hname.1
    · intro m' hm' name hname
      cases List.mem_singleton.1 hm'
      rw [FieldMap.names_pieces, FieldMap.mem_names_selected_iff]
      exact ⟨h name hname, hname⟩
  · intro h name hname
    have hwritten := h.complete m (List.mem_singleton_self _) name hname
    rw [FieldMap.names_pieces, FieldMap.mem_names_selected_iff] at hwritten
    exact hwritten.1

mutual

/-- A condition is accepted exactly when it is rendered faithfully. -/
theorem Condition.check_eq_ok_iff : ∀ c : Condition,
    c.check s = .ok () ↔ Condition.Faithful s comparison (Piece.names (c.pieces s comparison)) c.nodes
  | .expr ⟨left, op, right⟩ => by
    have hl := Operand.check_eq_ok_iff left right.field?
    have hr := Operand.check_eq_ok_iff right left.field?
    rw [Condition.check, seq_eq_ok_iff, hl, hr, ← Condition.faithful_append, Condition.pieces, Condition.nodes,
      Condition.faithful_cons (c := .expr ⟨left, op, right⟩) nofun, Piece.names_append]
    rfl
  | .list items op => by
    rw [Condition.check, Condition.checkItems_eq_ok_iff items, Condition.pieces, Condition.nodes,
      Condition.faithful_cons (c := .list items op) nofun, Piece.operator, Piece.names_intercalate]
  | .fieldMap m => by
    rw [Condition.check, Condition.pieces, Condition.nodes]
    exact m.check_eq_ok_iff_faithful
  | .raw text => by
    rw [Condition.check, Condition.pieces, Condition.nodes, Condition.faithful_cons (c := .raw text) nofun]
    exact ⟨fun _ => Condition.faithful_nil, fun _ => rfl⟩

theorem Condition.checkItems_eq_ok_iff : ∀ cs : List Condition,
    Condition.checkItems s cs = .ok () ↔
      Condition.Faithful s comparison ((Condition.piecesOfItems s comparison cs).flatMap Piece.names) (Condition.nodesOf cs)
  | [] => by
    rw [Condition.checkItems, Condition.piecesOfItems, Condition.nodesOf]
    exact ⟨fun _ => Condition.faithful_nil, fun _ => rfl⟩
  | c :: cs => by
    rw [Condition.checkItems, seq_eq_ok_iff, Condition.check_eq_ok_iff c, Condition.checkItems_eq_ok_iff cs,
      ← Condition.faithful_append, Condition.piecesOfItems, List.flatMap_cons, Piece.names_parentheses, Condition.nodesOf]

theorem Operand.check_eq_ok_iff : ∀ (o : Operand) (counterpart : Option String),
    o.check s = .ok () ↔ Condition.Faithful s comparison (Piece.names (o.pieces s comparison counterpart)) o.nodes
  | .condition c, _ => by
    rw [Operand.check, Operand.pieces, Operand.nodes]
    exact Condition.check_eq_ok_iff c
  | .field name, _ => by
    rw [Operand.check, Operand.pieces, Operand.nodes]
    by_cases h : s.hasField name = true
    · rw [if_pos h]
      refine ⟨fun _ => ⟨fun n hn => ?_, fun _ hm => absurd hm List.not_mem_nil⟩, fun _ => rfl⟩
      cases List.mem_singleton.1 hn
      exact (s.hasField_iff name).1 h
    · rw [if_neg h]
      refine ⟨nofun, fun hfaithful => absurd ?_ h⟩
      exact (s.hasField_iff name).2 (hfaithful.declared name (List.mem_singleton_self name))
  | .value v, _ => by
    rw [Operand.check, Operand.pieces, Operand.nodes]
    exact ⟨fun _ => Condition.faithful_nil, fun _ => rfl⟩

end

/-- Where a condition is accepted, so is every map in it. -/
theorem FieldMap.check_of_mem_nodes {c : Condition} (h : c.check s = .ok ()) {m : FieldMap} (hm : .fieldMap m ∈ c.nodes) :
    m.check s = .ok () := by
  rw [FieldMap.check_eq_ok_iff, Schema.hasFields_iff]
  intro name hname
  have hwritten := (c.check_eq_ok_iff.1 h : Condition.Faithful s .eq _ _).complete m hm name hname
  rw [FieldMap.names_pieces, FieldMap.mem_names_selected_iff] at hwritten
  exact hwritten.1

end Faithful

/-! ## Bound to what is compared -/

/-- A parameter binds a value that is compared with something: it has the value and, where that is compared with a field, a
field of the schema with just that name. -/
structure Parameter.Binds (s : Schema) (p : Parameter) (comparand : Option String × Value) : Prop where
  value : p.value = comparand.2
  field : ∀ name, comparand.1 = some name → ∃ f, p.field = some f ∧ f.name = name ∧ f ∈ s.fields

/-- What a map compares is its fields that are rendered, each with its value. -/
theorem FieldMap.comparands_eq_map (s : Schema) (m : FieldMap) :
    m.comparands s = (m.selected s).map fun f => (some f.name, (m.fields.get? f.name).getD .null) := by
  unfold FieldMap.comparands FieldMap.selected Bindings.contains
  induction s.fields with
  | nil => rfl
  | cons f fields ih =>
    rw [List.filterMap_cons, List.filter_cons]
    cases hget : m.fields.get? f.name with
    | none => exact ih
    | some v => simp only [Option.map_some, Option.isSome_some, if_true, List.map_cons, hget, Option.getD_some, ih]

/-- The places of a map bind its values to its fields. -/
theorem FieldMap.binds_comparands (s : Schema) (comparison : Operator) (m : FieldMap) :
    List.Forall₂ (Parameter.Binds s) (Piece.parameters (m.pieces s comparison)) (m.comparands s) := by
  rw [FieldMap.parameters_pieces, FieldMap.comparands_eq_map, List.forall₂_map_left_iff, List.forall₂_map_right_iff,
    List.forall₂_same]
  intro f hf
  refine ⟨rfl, fun name hname => ⟨f, rfl, Option.some.inj hname, ?_⟩⟩
  exact (List.mem_filter.1 hf).1

/-- The field that an accepted operand is, is declared. -/
theorem Operand.hasField_of_check {s : Schema} {o : Operand} (h : o.check s = .ok ()) :
    ∀ name, o.field? = some name → s.hasField name = true := by
  intro name hname
  cases o with
  | field n =>
    cases hname
    rw [Operand.check] at h
    split at h
    · assumption
    · nomatch h
  | condition c => nomatch hname
  | value v => nomatch hname

mutual

/-- The places of an accepted condition bind its values to what they are compared with, one after the other. -/
theorem Condition.binds_comparands {s : Schema} (comparison : Operator) : ∀ c : Condition, c.check s = .ok () →
    List.Forall₂ (Parameter.Binds s) (Piece.parameters (c.pieces s comparison)) (c.comparands s)
  | .expr ⟨left, op, right⟩, h => by
    rw [Condition.check, seq_eq_ok_iff] at h
    have hl := Operand.binds_comparands comparison left right.field? h.1 (Operand.hasField_of_check h.2)
    have hr := Operand.binds_comparands comparison right left.field? h.2 (Operand.hasField_of_check h.1)
    rw [Condition.pieces, Condition.comparands, Piece.parameters_append]
    exact List.rel_append hl hr
  | .list items op, h => by
    rw [Condition.check] at h
    rw [Condition.pieces, Condition.comparands, Piece.operator, Piece.parameters_intercalate]
    exact Condition.binds_comparandsOf comparison items h
  | .fieldMap m, _ => by
    rw [Condition.pieces, Condition.comparands]
    exact m.binds_comparands s comparison
  | .raw text, _ => by
    rw [Condition.pieces, Condition.comparands]
    exact .nil

theorem Condition.binds_comparandsOf {s : Schema} (comparison : Operator) : ∀ cs : List Condition,
    Condition.checkItems s cs = .ok () →
    List.Forall₂ (Parameter.Binds s) ((Condition.piecesOfItems s comparison cs).flatMap Piece.parameters)
      (Condition.comparandsOf s cs)
  | [], _ => by
    rw [Condition.piecesOfItems, Condition.comparandsOf]
    exact .nil
  | c :: cs, h => by
    rw [Condition.checkItems, seq_eq_ok_iff] at h
    rw [Condition.piecesOfItems, Condition.comparandsOf, List.flatMap_cons, Piece.parameters_parentheses]
    exact List.rel_append (Condition.binds_comparands comparison c h.1) (Condition.binds_comparandsOf comparison cs h.2)

/-- The places of an accepted operand bind its values, where the field on the other side is declared. -/
theorem Operand.binds_comparands {s : Schema} (comparison : Operator) : ∀ (o : Operand) (counterpart : Option String),
    o.check s = .ok () → (∀ name, counterpart = some name → s.hasField name = true) →
    List.Forall₂ (Parameter.Binds s) (Piece.parameters (o.pieces s comparison counterpart)) (o.comparands s counterpart)
  | .condition c, _, h, _ => by
    rw [Operand.check] at h
    rw [Operand.pieces, Operand.comparands]
    exact Condition.binds_comparands comparison c h
  | .field name, _, _, _ => by
    rw [Operand.pieces, Operand.comparands]
    exact .nil
  | .value v, counterpart, _, hcounterpart => by
    rw [Operand.pieces, Operand.comparands]
    refine .cons ⟨rfl, fun name hname => ?_⟩ .nil
    obtain ⟨f, hf⟩ := Option.isSome_iff_exists.1 (hcounterpart name hname)
    obtain ⟨hmem, hfname⟩ := Schema.mem_of_field?_eq_some hf
    cases hname
    exact ⟨f, hf, hfname, hmem⟩

end

/-- An entry of a map that is accepted has its place among what the map compares. -/
theorem FieldMap.mem_comparands {s : Schema} {m : FieldMap} (h : m.check s = .ok ()) {e : String × Value}
    (he : e ∈ m.fields.entries) : (some e.1, e.2) ∈ m.comparands s := by
  rw [FieldMap.check_eq_ok_iff, Schema.hasFields_iff] at h
  obtain ⟨f, hf, hname⟩ := List.mem_map.1 (h e.1 (List.mem_map_of_mem he))
  refine List.mem_filterMap.2 ⟨f, hf, ?_⟩
  rw [hname, m.fields.get?_of_mem he]
  rfl

mutual

/-- What a condition inside another compares stands together among what that compares. -/
theorem Condition.comparands_infix {s : Schema} : ∀ (c : Condition) {n : Condition}, n ∈ c.nodes →
    n.comparands s <:+: c.comparands s
  | .expr ⟨left, op, right⟩, n, hn => by
    rw [Condition.nodes, List.mem_cons, List.mem_append] at hn
    rcases hn with rfl | hn | hn
    · exact List.infix_refl _
    · rw [Condition.comparands]
      exact (Operand.comparands_infix left right.field? hn).trans (List.prefix_append _ _).isInfix
    · rw [Condition.comparands]
      exact (Operand.comparands_infix right left.field? hn).trans (List.suffix_append _ _).isInfix
  | .list items op, n, hn => by
    rw [Condition.nodes, List.mem_cons] at hn
    rcases hn with rfl | hn
    · exact List.infix_refl _
    · rw [Condition.comparands]
      exact Condition.comparandsOf_infix items hn
  | .fieldMap m, n, hn => by
    rw [Condition.nodes, List.mem_singleton] at hn
    subst hn
    exact List.infix_refl _
  | .raw text, n, hn => by
    rw [Condition.nodes, List.mem_singleton] at hn
    subst hn
    exact List.infix_refl _

theorem Condition.comparandsOf_infix {s : Schema} : ∀ (cs : List Condition) {n : Condition}, n ∈ Condition.nodesOf cs →
    n.comparands s <:+: Condition.comparandsOf s cs
  | [], n, hn => by
    rw [Condition.nodesOf] at hn
    exact absurd hn List.not_mem_nil
  | c :: cs, n, hn => by
    rw [Condition.nodesOf, List.mem_append] at hn
    rw [Condition.comparandsOf]
    rcases hn with hn | hn
    · exact (Condition.comparands_infix c hn).trans (List.prefix_append _ _).isInfix
    · exact (Condition.comparandsOf_infix cs hn).trans (List.suffix_append _ _).isInfix

theorem Operand.comparands_infix {s : Schema} : ∀ (o : Operand) (counterpart : Option String) {n : Condition}, n ∈ o.nodes →
    n.comparands s <:+: o.comparands s counterpart
  | .condition c, _, n, hn => by
    rw [Operand.nodes] at hn
    rw [Operand.comparands]
    exact Condition.comparands_infix c hn
  | .field _, _, _, hn => by
    rw [Operand.nodes] at hn
    exact absurd hn List.not_mem_nil
  | .value _, _, _, hn => by
    rw [Operand.nodes] at hn
    exact absurd hn List.not_mem_nil

end

/-! ## Compiling -/

/-- Compiling succeeds where the settings do not want validation or the condition is accepted, and then gives its clause. -/
theorem Compiler.compile_eq_ok_iff (k : Compiler) (c : Condition) (s : Schema) (out : Compiled) :
    k.compile c s = .ok out ↔
      (k.settings.validates = true → c.validate s = .ok ()) ∧
        (out.clause, out.params) = c.clauseWith s k.comparison k.settings.dialect := by
  let rendered := c.render (k.renderer s)
  have hout : (Except.ok ⟨rendered.sql, rendered.params⟩ : Except CompileError Compiled) = .ok out ↔
      (out.clause, out.params) = c.clauseWith s k.comparison k.settings.dialect := by
    constructor
    · intro h
      cases h
      rfl
    · intro h
      obtain ⟨clause, params⟩ := out
      cases h
      rfl
  unfold Compiler.compile Compiler.compileLogged Condition.validate
  cases hv : k.settings.validates with
  | false => simpa using hout
  | true =>
    cases hresult : (c.validateLogged s).result with
    | ok u => simpa [hresult] using hout
    | error reason => simp [hresult]

/-- A condition is accepted exactly when, in its clause, every name that is not in text of the caller's is that of a field of
the schema, and every map in it has all its names written by its own part of the clause. So what is compiled with validation
binds each value in its place to what it is compared with: where that is a field, the place has a field of the schema with just
that name. The places of every condition inside stand together among these, and each entry of a map has one. -/
theorem Condition.validate_eq_ok_iff_written (c : Condition) (s : Schema) (comparison : Operator) :
    (∀ d : Dialect, (c.clauseWith s comparison d).1 = Piece.spell d 0 (c.pieces s comparison)) ∧
    (c.validate s = .ok () ↔
      (∀ name ∈ Piece.names (c.pieces s comparison), name ∈ s.fields.map (·.name)) ∧
      ∀ m, .fieldMap m ∈ c.nodes → ∀ name ∈ m.fields.names, name ∈ Piece.names (m.pieces s comparison)) ∧
    ∀ (k : Compiler) (out : Compiled), k.settings.validates = true → k.compile c s = .ok out →
      List.Forall₂ (Parameter.Binds s) out.params (c.comparands s) ∧
      (∀ n ∈ c.nodes, n.comparands s <:+: c.comparands s) ∧
      ∀ m, .fieldMap m ∈ c.nodes → ∀ e ∈ m.fields.entries, (some e.1, e.2) ∈ (Condition.fieldMap m).comparands s := by
  refine ⟨fun d => by rw [Condition.clauseWith_eq], ?_, ?_⟩
  · rw [Condition.validate_eq_check, Condition.check_eq_ok_iff]
    exact ⟨fun h => ⟨h.declared, h.complete⟩, fun h => ⟨h.1, h.2⟩⟩
  · intro k out hvalidates hout
    obtain ⟨hv, hclause⟩ := (k.compile_eq_ok_iff c s out).1 hout
    have hcheck : c.check s = .ok () := (c.validate_eq_check s).symm.trans (hv hvalidates)
    have hparams : out.params = Piece.parameters (c.pieces s k.comparison) := by
      rw [Condition.clauseWith_eq] at hclause
      exact congrArg Prod.snd hclause
    rw [hparams]
    refine ⟨c.binds_comparands k.comparison hcheck, fun n hn => c.comparands_infix hn, fun m hm e he => ?_⟩
    rw [Condition.comparands]
    exact FieldMap.mem_comparands (FieldMap.check_of_mem_nodes hcheck hm) he

/-- Columns with a gap and a repeated name, a map in another order than theirs and a value on the left: the name that is
repeated is bound once for each of its columns, and each value has a column of its name. -/
theorem Condition.validate_eq_ok_iff_written_listed :
    let s : Schema := .listed "person" [some ⟨"id", .long⟩, none, some ⟨"name", .varChar⟩, some ⟨"id", .int⟩]
    let m : FieldMap := ⟨.ofList [("name", .null), ("id", .boolean true)], .or⟩
    let c : Condition := .list [.fieldMap m, .expr ⟨.value (.string "x"), .lt, .field "id"⟩, .raw "ghost = 1"] .and
    let k : Compiler := ⟨⟨.mysql, true⟩, .like⟩
    k.settings.validates = true ∧ ∃ out, k.compile c s = .ok out ∧
      List.Forall₂ (Parameter.Binds s) out.params (c.comparands s) ∧
      .fieldMap m ∈ c.nodes ∧ (Condition.fieldMap m).comparands s <:+: c.comparands s ∧
      ("name", .null) ∈ m.fields.entries ∧ (some "name", .null) ∈ (Condition.fieldMap m).comparands s := by
  intro s m c k
  have hmem : .fieldMap m ∈ c.nodes := by simp [c, Condition.nodes, Condition.nodesOf]
  have hentry : ("name", .null) ∈ m.fields.entries := .tail _ (.head _)
  refine ⟨rfl, _, rfl, ?_⟩
  obtain ⟨hbinds, hinfix, hentries⟩ := (Condition.validate_eq_ok_iff_written c s .like).2.2 k _ rfl rfl
  exact ⟨hbinds, hmem, hinfix _ hmem, hentry, hentries m hmem _ hentry⟩

end WhereClause
