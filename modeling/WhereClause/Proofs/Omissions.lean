import Mathlib.Data.List.Dedup
import WhereClause.Condition.Checks
import WhereClause.Proofs.Declared

/-!
# Omissions: the fields of a map that are left out

Rendering leaves out the fields of a map that the schema does not declare, and validating rejects them. The two find out by
different means: validating looks every name up, while rendering compares the number of fields that it renders with the number of
names. A name that a schema repeats is rendered as often, and so it makes up for a name that is left out. So what is left out is
reported exactly when there is more of it than of repeated names (`FieldMap.log_render_undeclared`): always, where names are
distinct, as they are in an entity schema, but not in every listed schema (`FieldMap.render_repeated_unreported`).
-/

namespace WhereClause

/-! ## What rendering reports -/

section Log

variable (comparison : Operator) (values : Bindings Value) (code : String)

theorem Renderer.log_pushField (r : Renderer) (f : Field) : (Renderer.pushField comparison values r f).log = r.log := rfl

theorem Renderer.log_foldl_pushField (fields : List Field) (r : Renderer) :
    (fields.foldl (fun r f => Renderer.pushField comparison values (r.pushCode code) f) r).log = r.log := by
  induction fields generalizing r with
  | nil => rfl
  | cons f rest ih =>
    rw [List.foldl_cons, ih, Renderer.log_pushField]
    rfl

theorem Renderer.log_pushFields (r : Renderer) (fields : List Field) :
    (Renderer.pushFields comparison values code r fields).log = r.log := by
  cases fields with
  | nil => rfl
  | cons f rest => rw [Renderer.pushFields, Renderer.log_foldl_pushField, Renderer.log_pushField]

end Log

/-- Rendering a map reports at most what is left out. -/
theorem FieldMap.log_render (m : FieldMap) (r : Renderer) :
    (m.render r).log = r.log ++
      if (m.selected r.schema).length < m.fields.size then [.skipping r.schema.entityName (m.unknown r.schema)] else [] := by
  rw [FieldMap.render, Renderer.log_pushFields]
  split
  · rfl
  · exact (List.append_nil r.log).symm

/-! ## What is left out -/

/-- The names in a map that a schema does not declare, in order. -/
def FieldMap.undeclared (m : FieldMap) (s : Schema) : List String := m.fields.names.filter fun name => !s.declares name

/-- How many of the fields that a map has rendered are of a name that has been rendered already. -/
def FieldMap.repeats (m : FieldMap) (s : Schema) : Nat :=
  (m.selected s).length - ((m.selected s).map (·.name)).dedup.length

/-- A name is declared exactly when one of the fields has it. -/
theorem Schema.declares_iff (s : Schema) (name : String) : s.declares name = true ↔ name ∈ s.fields.map (·.name) := by
  rw [Schema.declares, List.any_eq_true, List.mem_map]
  simp only [beq_iff_eq]

/-- The name of a field is declared exactly when it stands for a field. -/
theorem Schema.declares_eq_hasField (s : Schema) (name : String) : s.declares name = s.hasField name := by
  rw [Bool.eq_iff_iff, s.declares_iff, s.hasField_iff]

/-- What rendering reports as left out, and validating rejects, is what is not declared. -/
theorem FieldMap.unknown_eq_undeclared (m : FieldMap) (s : Schema) : m.unknown s = m.undeclared s := by
  unfold FieldMap.unknown FieldMap.undeclared
  simp only [Schema.declares_eq_hasField]

/-- The names rendered for a map, each taken once, are its names that are declared. -/
theorem FieldMap.length_dedup_selected (m : FieldMap) (s : Schema) :
    ((m.selected s).map (·.name)).dedup.length = (m.fields.names.filter s.declares).length := by
  refine ((List.perm_ext_iff_of_nodup (List.nodup_dedup _) (m.fields.nodup_names.filter _)).2 fun name => ?_).length_eq
  rw [List.mem_dedup, m.mem_names_selected_iff, List.mem_filter, s.declares_iff, and_comm]

/-- The fields rendered for a map and the names not declared are as many as its names and the fields rendered again. -/
theorem FieldMap.length_selected_add (m : FieldMap) (s : Schema) :
    (m.selected s).length + (m.undeclared s).length = m.fields.size + m.repeats s := by
  have hdistinct := m.length_dedup_selected s
  have hnames : m.fields.size = (m.fields.names.filter s.declares).length + (m.undeclared s).length := by
    rw [Bindings.size, ← List.length_map (·.1)]
    exact List.length_eq_length_filter_add _
  have hle : ((m.selected s).map (·.name)).dedup.length ≤ (m.selected s).length := by
    calc ((m.selected s).map (·.name)).dedup.length
        _ ≤ ((m.selected s).map (·.name)).length := (List.dedup_sublist _).length_le
        _ = (m.selected s).length := List.length_map _
  rw [FieldMap.repeats]
  omega

/-- Where the names of a schema are distinct, no field of a map is rendered again. -/
theorem FieldMap.repeats_eq_zero {s : Schema} (h : (s.fields.map (·.name)).Nodup) (m : FieldMap) : m.repeats s = 0 := by
  rw [FieldMap.repeats, (FieldMap.nodup_names_selected h m).dedup, List.length_map, Nat.sub_self]

/-- A map is accepted exactly when no name in it is left undeclared, and rejected for those that are. -/
theorem FieldMap.check_eq_undeclared (m : FieldMap) (s : Schema) :
    m.check s = if (m.undeclared s).isEmpty then .ok () else .error (.unknownFields s.entityName (m.undeclared s)) := by
  have hall : s.hasFields m.fields.names = (m.undeclared s).isEmpty := by
    rw [Bool.eq_iff_iff, s.hasFields_iff, List.isEmpty_iff, FieldMap.undeclared, List.filter_eq_nil_iff]
    simp only [Bool.not_eq_true', Bool.not_eq_false, Schema.declares_iff]
  rw [FieldMap.check, hall, m.unknown_eq_undeclared]

/-! ## What is left out and reported -/

/-- Rendering a map reports the names that the schema does not declare, in their order, exactly when there are more of them than
fields rendered again; validating rejects the map exactly when there is one, and for all of them. So the report and the rejection
come together wherever the names of the schema are distinct. -/
theorem FieldMap.log_render_undeclared (m : FieldMap) (r : Renderer) :
    ((Condition.fieldMap m).render r).log = r.log ++ .rendering .fieldMap ::
      (if m.repeats r.schema < (m.undeclared r.schema).length then
        [.skipping r.schema.entityName (m.undeclared r.schema)]
      else []) ∧
    (Condition.fieldMap m).validate r.schema =
      (if (m.undeclared r.schema).isEmpty then .ok ()
      else .error (.unknownFields r.schema.entityName (m.undeclared r.schema))) ∧
    ((r.schema.fields.map (·.name)).Nodup → m.repeats r.schema = 0) ∧
    ∀ s : EntitySchema, r.schema = .entity s → m.repeats r.schema = 0 := by
  refine ⟨?_, ?_, fun h => m.repeats_eq_zero h, ?_⟩
  · have hcount := m.length_selected_add r.schema
    have hiff : (m.selected r.schema).length < m.fields.size ↔ m.repeats r.schema < (m.undeclared r.schema).length := by omega
    rw [Condition.render, Condition.renderNode, FieldMap.log_render]
    simp only [Renderer.record, hiff, m.unknown_eq_undeclared, List.append_assoc, List.cons_append, List.nil_append]
    rfl
  · rw [Condition.validate_eq_check, Condition.check, m.check_eq_undeclared]
  · intro s hs
    refine m.repeats_eq_zero ?_
    rw [hs, Schema.fields_entity]
    exact s.nodup_names

/-- A schema that lists one column twice, and a map of that column and of another: the other is left out, and rejected, and not
reported. -/
theorem FieldMap.render_repeated_unreported :
    let s : Schema := .listed "t" [some ⟨"a", .int⟩, some ⟨"a", .int⟩]
    let m : FieldMap := ⟨.ofList [("a", .int 1), ("b", .int 2)], .and⟩
    m.undeclared s = ["b"] ∧ ((Condition.fieldMap m).render (Renderer.new .standard s)).log = [.rendering .fieldMap] ∧
      (Condition.fieldMap m).validate s = .error (.unknownFields "t" ["b"]) := by
  decide +kernel

end WhereClause
