import WhereClause.Compiler
import WhereClause.Condition.Nodes
import WhereClause.Proofs.Counting
import WhereClause.Proofs.Omissions

/-!
# Course: what a compilation reports of itself

Rendering reports each condition that it comes to, in the order of the nodes, and after a map what it leaves out of the map
(`Condition.reports_render`). It reports nothing else, and nothing that was reported before is lost, which is what carries the
induction: the parts of a condition are rendered where the ones before them left off. What is left out of a map is reported
whenever there is any because the names of the schema are distinct (see `FieldMap.log_render_undeclared` for the others).

So a compilation for an entity shows that it starts, and then either that the condition is rejected and no more, or every node of
the condition and at last the number of parameters, which is the number that is counted without rendering
(`Compiler.log_compileLogged`).
-/

namespace WhereClause

/-! ## Reports -/

/-- A renderer is another that has reported events since, for the same schema. -/
structure Renderer.Reports (r : Renderer) (events : List Event) (r' : Renderer) : Prop where
  log : r'.log = r.log ++ events
  schema : r'.schema = r.schema

theorem Renderer.Reports.trans {r r' r'' : Renderer} {events later : List Event} (h : r.Reports events r')
    (h' : r'.Reports later r'') : r.Reports (events ++ later) r'' :=
  ⟨by rw [h'.log, h.log, List.append_assoc], h'.schema.trans h.schema⟩

theorem Renderer.Reports.silent {r r' : Renderer} (hlog : r'.log = r.log) (hschema : r'.schema = r.schema) : r.Reports [] r' :=
  ⟨by rw [hlog, List.append_nil], hschema⟩

theorem Renderer.reports_record (r : Renderer) (event : Event) : r.Reports [event] (r.record event) := ⟨rfl, rfl⟩

theorem Renderer.reports_push (r : Renderer) (text : String) : r.Reports [] (r.push text) := .silent rfl rfl

theorem Renderer.reports_pushCode (r : Renderer) (code : String) : r.Reports [] (r.pushCode code) := .silent rfl rfl

/-- The fields of a map are rendered without a report. -/
theorem Renderer.reports_pushFields (comparison : Operator) (values : Bindings Value) (code : String) (r : Renderer)
    (fields : List Field) : r.Reports [] (Renderer.pushFields comparison values code r fields) := by
  have hschema : ∀ (fields : List Field) (r : Renderer),
      (fields.foldl (fun r f => Renderer.pushField comparison values (r.pushCode code) f) r).schema = r.schema := by
    intro fields
    induction fields with
    | nil => exact fun _ => rfl
    | cons f fields ih => exact fun r => ih _
  refine .silent (Renderer.log_pushFields comparison values code r fields) ?_
  cases fields with
  | nil => rfl
  | cons f fields => exact hschema fields _

/-! ## What rendering reports -/

/-- What rendering a map reports as left out: nothing, if the schema declares all its names. -/
def FieldMap.omissions (s : Schema) (m : FieldMap) : List Event :=
  if (m.undeclared s).isEmpty then [] else [.skipping s.entityName (m.undeclared s)]

/-- What rendering reports at a condition, the conditions inside it apart. -/
def Condition.ownEvents (s : Schema) (c : Condition) : List Event :=
  .rendering c.kind ::
    match c with
    | .fieldMap m => m.omissions s
    | _ => []

/-- An expression rendered, with the report that it is: its left side, its operator, its right side. -/
theorem Condition.render_expr (left right : Operand) (op : Operator) (r : Renderer) :
    (Condition.expr ⟨left, op, right⟩).render r =
      right.render left.field? ((left.render right.field? (r.record (.rendering .expr))).pushCode op.code) := by
  rw [Condition.render, Condition.renderNode]
  rfl

/-- A list rendered, with the report that it is: its first item in parentheses, then the others. -/
theorem Condition.render_list_cons (c : Condition) (cs : List Condition) (op : Operator) (r : Renderer) :
    (Condition.list (c :: cs) op).render r =
      Condition.renderRest op cs ((c.render ((r.record (.rendering .list)).push "(")).push ")") := by
  rw [Condition.render, Condition.renderNode]
  rfl

/-- An item of a list after its first rendered: after the operator, in parentheses, with the report that it is. -/
theorem Condition.renderRest_cons (c : Condition) (cs : List Condition) (op : Operator) (r : Renderer) :
    Condition.renderRest op (c :: cs) r =
      Condition.renderRest op cs ((c.render ((r.pushCode op.code).push "(")).push ")") := by
  rw [Condition.renderRest]
  rfl

/-- Where the names of the schema are distinct, rendering a map reports what is left out. -/
theorem FieldMap.reports_render {s : Schema} (hs : (s.fields.map (·.name)).Nodup) (m : FieldMap) {r : Renderer}
    (hr : r.schema = s) : r.Reports (m.omissions s) (m.render r) := by
  have hcount := m.length_selected_add s
  rw [m.repeats_eq_zero hs, Nat.add_zero] at hcount
  have hiff : (m.selected s).length < m.fields.size ↔ ¬ (m.undeclared s).isEmpty = true := by
    rw [List.isEmpty_iff, ← List.length_eq_zero_iff]
    omega
  constructor
  · rw [FieldMap.log_render, hr, FieldMap.omissions, m.unknown_eq_undeclared]
    simp only [hiff, ite_not]
  · rw [FieldMap.render]
    refine (Renderer.reports_pushFields _ _ _ _ _).schema.trans ?_
    split
    · rfl
    · rfl

mutual

/-- Where the names of the schema are distinct, rendering a condition reports its nodes in order, from wherever the renderer
stands. -/
theorem Condition.reports_render {s : Schema} (hs : (s.fields.map (·.name)).Nodup) : ∀ (c : Condition) {r : Renderer},
    r.schema = s → r.Reports (c.nodes.flatMap (Condition.ownEvents s)) (c.render r)
  | .expr ⟨left, op, right⟩, r, hr => by
    have hstart := r.reports_record (.rendering .expr)
    have hleft := hstart.trans (Operand.reports_render hs left right.field? (hstart.schema.trans hr))
    have hcode := hleft.trans (Renderer.reports_pushCode _ op.code)
    have hright := hcode.trans (Operand.reports_render hs right left.field? (hcode.schema.trans hr))
    have hown : Condition.ownEvents s (.expr ⟨left, op, right⟩) = [.rendering .expr] := rfl
    rw [Condition.render_expr, Condition.nodes, List.flatMap_cons, List.flatMap_append, hown]
    simpa only [List.append_nil, List.append_assoc] using hright
  | .list [] op, r, hr => by
    rw [Condition.render, Condition.renderNode, Condition.nodes, Condition.nodesOf]
    exact r.reports_record (.rendering .list)
  | .list (c :: cs) op, r, hr => by
    have hstart := r.reports_record (.rendering .list)
    have hopen := hstart.trans (Renderer.reports_push _ "(")
    have hfirst := hopen.trans (Condition.reports_render hs c (hopen.schema.trans hr))
    have hclose := hfirst.trans (Renderer.reports_push _ ")")
    have hrest := hclose.trans (Condition.reports_renderRest hs op cs (hclose.schema.trans hr))
    have hown : Condition.ownEvents s (.list (c :: cs) op) = [.rendering .list] := rfl
    rw [Condition.render_list_cons, Condition.nodes, Condition.nodesOf, List.flatMap_cons, List.flatMap_append, hown]
    simpa only [List.append_nil, List.append_assoc] using hrest
  | .fieldMap m, r, hr => by
    have hstart := r.reports_record (.rendering .fieldMap)
    rw [Condition.render, Condition.renderNode, Condition.nodes, List.flatMap_singleton]
    exact hstart.trans (FieldMap.reports_render hs m (hstart.schema.trans hr))
  | .raw text, r, hr => by
    rw [Condition.render, Condition.renderNode, Condition.nodes, List.flatMap_singleton]
    exact (r.reports_record (.rendering .raw)).trans (Renderer.reports_push _ text)

/-- Rendering the items of a list after its first reports their nodes in order. -/
theorem Condition.reports_renderRest {s : Schema} (hs : (s.fields.map (·.name)).Nodup) (op : Operator) :
    ∀ (cs : List Condition) {r : Renderer}, r.schema = s →
      r.Reports ((Condition.nodesOf cs).flatMap (Condition.ownEvents s)) (Condition.renderRest op cs r)
  | [], r, hr => by
    rw [Condition.renderRest, Condition.nodesOf]
    exact .silent rfl rfl
  | c :: cs, r, hr => by
    have hopen := (r.reports_pushCode op.code).trans (Renderer.reports_push _ "(")
    have hitem := hopen.trans (Condition.reports_render hs c (hopen.schema.trans hr))
    have hclose := hitem.trans (Renderer.reports_push _ ")")
    have hrest := hclose.trans (Condition.reports_renderRest hs op cs (hclose.schema.trans hr))
    rw [Condition.renderRest_cons, Condition.nodesOf, List.flatMap_append]
    simpa only [List.nil_append, List.append_nil] using hrest

theorem Operand.reports_render {s : Schema} (hs : (s.fields.map (·.name)).Nodup) :
    ∀ (o : Operand) (counterpart : Option String) {r : Renderer}, r.schema = s →
      r.Reports (o.nodes.flatMap (Condition.ownEvents s)) (o.render counterpart r)
  | .condition c, _, r, hr => by
    rw [Operand.render, Operand.nodes]
    exact Condition.reports_render hs c hr
  | .field name, _, r, hr => by
    rw [Operand.render, Operand.nodes]
    exact .silent rfl rfl
  | .value v, _, r, hr => by
    rw [Operand.render, Operand.nodes]
    exact .silent rfl rfl

end

/-! ## What compiling reports -/

/-- A rejection is reported, and nothing else. -/
theorem Condition.validateLogged_of_error {c : Condition} {s : Schema} {reason : Rejection} (h : c.validate s = .error reason) :
    c.validateLogged s = ⟨[.rejected s.entityName reason], .error reason⟩ := by
  rw [Condition.validate_eq_check] at h
  rw [Condition.validateLogged, h]

/-- An acceptance is not reported. -/
theorem Condition.validateLogged_of_ok {c : Condition} {s : Schema} (h : c.validate s = .ok ()) :
    c.validateLogged s = ⟨[], .ok ()⟩ := by
  rw [Condition.validate_eq_check] at h
  rw [Condition.validateLogged, h]

/-- A condition that is rejected is not rendered. -/
theorem Compiler.compileLogged_of_error {k : Compiler} {c : Condition} {s : Schema} {reason : Rejection}
    (hk : k.settings.validates = true) (h : c.validate s = .error reason) :
    k.compileLogged c s =
      ⟨[.compiling c.kind s.entityName k.settings.dialect, .rejected s.entityName reason], .error (.rejected reason)⟩ := by
  simp only [Compiler.compileLogged, hk, if_true, Condition.validateLogged_of_error h]

/-- A condition that is accepted, or is not validated, is rendered. -/
theorem Compiler.compileLogged_of_ok {k : Compiler} {c : Condition} {s : Schema}
    (h : k.settings.validates = true → c.validate s = .ok ()) :
    k.compileLogged c s =
      ⟨.compiling c.kind s.entityName k.settings.dialect ::
          (c.render (k.renderer s)).log ++ [.compiled (c.render (k.renderer s)).params.length],
        .ok ⟨(c.render (k.renderer s)).sql, (c.render (k.renderer s)).params⟩⟩ := by
  have hchecked : (if k.settings.validates then c.validateLogged s else ⟨[], .ok ()⟩) =
      (⟨[], .ok ()⟩ : Logged (Except Rejection Unit)) := by
    split
    · rename_i hk
      exact Condition.validateLogged_of_ok (h hk)
    · rfl
  simp only [Compiler.compileLogged, hchecked, List.cons_append, List.nil_append]

/-! ## How it is shown -/

/-- An event as it is shown: how much detail it is, and its words. -/
def Event.line (e : Event) : Event.Level × String := (e.level, e.message)

/-- What is shown of a condition that rendering comes to, the conditions inside it apart: its kind, and for a map the names that
are not declared, if there are any. -/
def Condition.ownLines (s : Schema) (c : Condition) : List (Event.Level × String) :=
  (.trace, "Rendering " ++ c.kind.name ++ " condition") ::
    match c with
    | .fieldMap m =>
      if (m.undeclared s).isEmpty then []
      else [(.debug, "Skipping fields unknown to '" ++ s.entityName ++ "': " ++ Text.quotedList (m.undeclared s))]
    | _ => []

/-- What rendering reports at a condition is shown as its lines. -/
theorem Condition.map_line_ownEvents (s : Schema) (c : Condition) : (c.ownEvents s).map Event.line = c.ownLines s := by
  cases c with
  | expr e => rfl
  | list items op => rfl
  | raw text => rfl
  | fieldMap m =>
    simp only [Condition.ownEvents, Condition.ownLines, FieldMap.omissions]
    split
    · rfl
    · rfl

/-- Compiling for an entity first shows its start. If the settings want validation and the condition is rejected, it then shows
the rejection and nothing else, and that is the result. Otherwise it shows every condition in the condition in order, each map
with what is left out of it, and at last the number of parameters that is counted without rendering; the result then is a clause
with so many. -/
theorem Compiler.log_compileLogged (k : Compiler) (c : Condition) (s : EntitySchema) :
    let shown := (k.compileLogged c (.entity s)).log.map Event.line
    let start : Event.Level × String := (.debug,
      "Compiling " ++ c.kind.name ++ " condition for '" ++ s.name ++ "' (" ++ k.settings.dialect.displayName ++ ")")
    (∃ reason : Rejection, k.settings.validates = true ∧ c.validate (.entity s) = .error reason ∧
      k.compile c (.entity s) = .error (.rejected reason) ∧
      shown = [start, (.debug, "Condition rejected by '" ++ s.name ++ "': " ++ reason.message)]) ∨
    ((k.settings.validates = true → c.validate (.entity s) = .ok ()) ∧
      ∃ out : Compiled, k.compile c (.entity s) = .ok out ∧ out.params.length = c.parameterCount (.entity s) ∧
        shown = start :: c.nodes.flatMap (Condition.ownLines (.entity s)) ++
          [(.debug, "Compiled WHERE clause with " ++ toString (c.parameterCount (.entity s)) ++ " parameter(s)")]) := by
  intro shown start
  by_cases hrejected : ∃ reason, k.settings.validates = true ∧ c.validate (.entity s) = .error reason
  · obtain ⟨reason, hk, hreason⟩ := hrejected
    have hlogged := Compiler.compileLogged_of_error hk hreason
    refine .inl ⟨reason, hk, hreason, ?_, ?_⟩
    · rw [Compiler.compile, hlogged]
    · simp only [shown, hlogged]
      rfl
  · have hok : k.settings.validates = true → c.validate (.entity s) = .ok () := by
      intro hk
      cases hv : c.validate (.entity s) with
      | ok u => rfl
      | error reason => exact absurd ⟨reason, hk, hv⟩ hrejected
    have hlogged := Compiler.compileLogged_of_ok hok
    have hreports := Condition.reports_render (Schema.nodup_names_entity s) c (r := k.renderer (.entity s)) rfl
    have hcount : (c.render (k.renderer (.entity s))).params.length = c.parameterCount (.entity s) := by
      have hadds := c.adds_render (r := k.renderer (.entity s)) ⟨rfl, rfl⟩
      rw [hadds.params, ← c.length_parameters (.entity s) k.comparison]
      rfl
    let out : Compiled := ⟨(c.render (k.renderer (.entity s))).sql, (c.render (k.renderer (.entity s))).params⟩
    refine .inr ⟨hok, out, ?_, hcount, ?_⟩
    · rw [Compiler.compile, hlogged]
    · simp only [shown, hlogged, hreports.log, hcount, List.map_append, List.map_cons, List.map_flatMap,
        Condition.map_line_ownEvents]
      rfl

/-- A map of which a field is left out, beside an expression inside a list: with validation it is rejected before anything is
rendered, and without it is compiled. -/
example :
    ∃ s, EntitySchema.ofFields "t" [⟨"a", .int⟩] = .ok s ∧
      let c : Condition := .list [.eq "a" .null, .ofFields .and [("b", .int 1), ("a", .int 2)]] .or
      ((Compiler.new ⟨.postgres, true⟩).compileLogged c (.entity s)).log =
        [.compiling .list "t" .postgres, .rejected "t" (.unknownFields "t" ["b"])] ∧
      ((Compiler.new ⟨.postgres, false⟩).compileLogged c (.entity s)).log =
        [.compiling .list "t" .postgres, .rendering .list, .rendering .expr, .rendering .fieldMap, .skipping "t" ["b"],
          .compiled 2] :=
  ⟨_, rfl, rfl, rfl⟩

end WhereClause
