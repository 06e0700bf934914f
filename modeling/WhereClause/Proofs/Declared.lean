import Mathlib.Data.List.Perm.Basic
import WhereClause.Condition.Validate
import WhereClause.Outcome

/-!
# Declared: which names a schema stands for

The index of an entity schema holds the names of its fields and no others, these are distinct, and each is given its place. So a
schema of either kind finds the first field of a name (`Schema.field?_eq_find?`), and a name stands for a field exactly when it is
the name of one. Where an entity schema declares all the fields of a map, the map has each of them rendered once
(`FieldMap.names_selected_perm`): in the schema's order and not its own, which for the truth of the whole makes no difference.
-/

namespace WhereClause

/-! ## The index of an entity schema -/

/-- An index with one more name holds that name and what it held. -/
theorem FieldIndex.contains_insert_iff (index : FieldIndex) (name other : String) (position : Nat) :
    (index.insert name position).contains other = true ↔ name = other ∨ index.contains other = true := by
  rw [Std.TreeMap.contains_insert, Bool.or_eq_true, beq_iff_eq, Std.LawfulEqCmp.compare_eq_iff_eq]

/-- A name is new to an index with one more name if it is another name and new to the index without it. -/
theorem FieldIndex.contains_insert_eq_false_iff (index : FieldIndex) (name other : String) (position : Nat) :
    (index.insert name position).contains other = false ↔ name ≠ other ∧ index.contains other = false := by
  rw [← Bool.not_eq_true, FieldIndex.contains_insert_iff, not_or, Bool.not_eq_true]

/-- An index extended by fields holds what it held and the names of the fields. -/
theorem FieldIndex.contains_extend {entity : String} {index index' : FieldIndex} {position : Nat} {fields : List Field}
    (h : FieldIndex.extend entity index position fields = .ok index') (name : String) :
    index'.contains name = true ↔ index.contains name = true ∨ name ∈ fields.map (·.name) := by
  induction fields generalizing index position with
  | nil =>
    simp only [FieldIndex.extend, Except.ok.injEq] at h
    subst h
    simp
  | cons f fields ih =>
    rw [FieldIndex.extend] at h
    split at h
    · nomatch h
    · rw [ih h, FieldIndex.contains_insert_iff, List.map_cons, List.mem_cons, eq_comm (a := f.name), or_assoc, or_left_comm]

/-- Fields by which an index was extended have distinct names, none of which it held. -/
theorem FieldIndex.nodup_extend {entity : String} {index index' : FieldIndex} {position : Nat} {fields : List Field}
    (h : FieldIndex.extend entity index position fields = .ok index') :
    (fields.map (·.name)).Nodup ∧ ∀ name ∈ fields.map (·.name), index.contains name = false := by
  induction fields generalizing index position with
  | nil => exact ⟨List.nodup_nil, nofun⟩
  | cons f fields ih =>
    rw [FieldIndex.extend] at h
    split at h
    · nomatch h
    · rename_i hf
      obtain ⟨hnodup, hfresh⟩ := ih h
      have hnew : ∀ name ∈ fields.map (·.name), f.name ≠ name ∧ index.contains name = false :=
        fun name hname => (FieldIndex.contains_insert_eq_false_iff index f.name name position).1 (hfresh name hname)
      rw [List.map_cons]
      refine ⟨List.nodup_cons.2 ⟨fun hmem => (hnew f.name hmem).1 rfl, hnodup⟩, ?_⟩
      intro name hname
      rcases List.mem_cons.1 hname with rfl | hname
      · exact Bool.eq_false_iff.2 hf
      · exact (hnew name hname).2

/-- The index of an entity schema holds the names of its fields. -/
theorem EntitySchema.contains_index_iff (s : EntitySchema) (name : String) :
    s.index.contains name = true ↔ name ∈ s.fields.map (·.name) := by
  rw [FieldIndex.contains_extend s.indexed name]
  simp

/-- The fields of an entity schema have distinct names. -/
theorem EntitySchema.nodup_names (s : EntitySchema) : (s.fields.map (·.name)).Nodup := (FieldIndex.nodup_extend s.indexed).1

/-- The fields of an entity schema in order are those it was made of. -/
theorem Schema.fields_entity (s : EntitySchema) : (Schema.entity s).fields = s.fields := by
  have go : ∀ fields : List Field, (List.range fields.length).filterMap (fun i => fields[i]?) = fields := by
    intro fields
    induction fields with
    | nil => rfl
    | cons f fields ih =>
      rw [List.length_cons, List.range_succ_eq_map, List.filterMap_cons, List.filterMap_map]
      exact congrArg (f :: ·) ih
  exact go s.fields

/-- The names of an entity's fields are distinct. -/
theorem Schema.nodup_names_entity (s : EntitySchema) : ((Schema.entity s).fields.map (·.name)).Nodup := by
  rw [Schema.fields_entity]
  exact s.nodup_names

/-- An index extended by fields gives the name of a field its place among them, counted from the position on, and other names what
it gave them. -/
theorem FieldIndex.getElem?_extend {entity : String} {index index' : FieldIndex} {position : Nat} {fields : List Field}
    (h : FieldIndex.extend entity index position fields = .ok index') (name : String) :
    index'[name]? = ((fields.findIdx? fun f => f.name == name).map (position + ·)).or index[name]? := by
  induction fields generalizing index position with
  | nil =>
    simp only [FieldIndex.extend, Except.ok.injEq] at h
    subst h
    rfl
  | cons f fields ih =>
    rw [FieldIndex.extend] at h
    split at h
    · nomatch h
    · rw [ih h, List.findIdx?_cons, Std.TreeMap.getElem?_insert]
      by_cases hname : f.name = name
      · -- the field is the first of its name, and none after it has that name
        have hnone : (fields.findIdx? fun f => f.name == name) = none := by
          rw [List.findIdx?_eq_none_iff]
          intro g hg
          refine beq_eq_false_iff_ne.2 fun hgname => ?_
          have hfresh := (FieldIndex.nodup_extend h).2 g.name (List.mem_map_of_mem hg)
          rw [FieldIndex.contains_insert_eq_false_iff] at hfresh
          exact hfresh.1 (hname.trans hgname.symm)
        rw [hnone, if_pos (Std.LawfulEqCmp.compare_eq_iff_eq.2 hname), if_pos (beq_iff_eq.2 hname)]
        rfl
      · have hcompare : ¬ compare f.name name = .eq := fun h => hname (Std.LawfulEqCmp.compare_eq_iff_eq.1 h)
        rw [if_neg hcompare, if_neg (fun h => hname (beq_iff_eq.1 h)), Option.map_map]
        congr 2
        funext i
        rw [Function.comp_apply, Nat.add_assoc, Nat.add_comm 1]

/-- The index of an entity schema finds the field that going through the fields finds. -/
theorem EntitySchema.field?_eq_find? (s : EntitySchema) (name : String) :
    s.field? name = s.fields.find? fun f => f.name == name := by
  have hindex := FieldIndex.getElem?_extend s.indexed name
  have hempty : (∅ : FieldIndex)[name]? = none := Std.TreeMap.getElem?_emptyc
  rw [hempty, Option.or_none] at hindex
  unfold EntitySchema.field?
  rw [hindex, List.find?_eq_bind_findIdx?_getElem?]
  cases s.fields.findIdx? fun f => f.name == name with
  | none => rfl
  | some i => rw [Option.map_some, Option.bind_some, Option.bind_some, Nat.zero_add]

/-! ## Schemas of either kind -/

/-- The field that a name stands for is the first of that name. -/
theorem Schema.field?_eq_find? (s : Schema) (name : String) : s.field? name = s.fields.find? fun f => f.name == name := by
  cases s with
  | entity s =>
    rw [Schema.fields_entity]
    exact s.field?_eq_find? name
  | listed n columns => rfl

/-- The field that a name stands for is one of the fields, and has that name. -/
theorem Schema.mem_of_field?_eq_some {s : Schema} {name : String} {f : Field} (h : s.field? name = some f) :
    f ∈ s.fields ∧ f.name = name := by
  rw [Schema.field?_eq_find?] at h
  have hname := List.find?_some h
  exact ⟨List.mem_of_find?_eq_some h, beq_iff_eq.1 hname⟩

/-- A name stands for a field exactly when one of the fields has that name. -/
theorem Schema.hasField_iff (s : Schema) (name : String) : s.hasField name = true ↔ name ∈ s.fields.map (·.name) := by
  unfold Schema.hasField
  rw [Schema.field?_eq_find?, List.find?_isSome, List.mem_map]
  simp only [beq_iff_eq]

/-- All of some names stand for fields exactly when each is the name of one of the fields. -/
theorem Schema.hasFields_iff (s : Schema) (names : List String) :
    s.hasFields names = true ↔ ∀ name ∈ names, name ∈ s.fields.map (·.name) := by
  cases s with
  | entity s =>
    rw [Schema.hasFields, List.all_eq_true, Schema.fields_entity]
    simp only [EntitySchema.contains_index_iff]
  | listed n columns =>
    rw [Schema.hasFields, List.all_eq_true]
    simp only [Schema.hasField_iff]

/-! ## The names of a map -/

/-- A map is accepted exactly when the schema has all its fields. -/
theorem FieldMap.check_eq_ok_iff (m : FieldMap) (s : Schema) : m.check s = .ok () ↔ s.hasFields m.fields.names = true := by
  unfold FieldMap.check
  split
  · rename_i h
    exact ⟨fun _ => h, fun _ => rfl⟩
  · rename_i h
    exact ⟨nofun, fun h' => absurd h' h⟩

/-- The names that a map has rendered are those of its names that the schema declares. -/
theorem FieldMap.mem_names_selected_iff (m : FieldMap) (s : Schema) (name : String) :
    name ∈ (m.selected s).map (·.name) ↔ name ∈ s.fields.map (·.name) ∧ name ∈ m.fields.names := by
  unfold FieldMap.selected
  simp only [List.mem_map, List.mem_filter, Bindings.contains_iff]
  constructor
  · rintro ⟨f, ⟨hf, hname⟩, rfl⟩
    exact ⟨⟨f, hf, rfl⟩, hname⟩
  · rintro ⟨⟨f, hf, rfl⟩, hname⟩
    exact ⟨f, ⟨hf, hname⟩, rfl⟩

/-- Where the names of a schema are distinct, so are those that a map has rendered. -/
theorem FieldMap.nodup_names_selected {s : Schema} (h : (s.fields.map (·.name)).Nodup) (m : FieldMap) :
    ((m.selected s).map (·.name)).Nodup := h.sublist (List.filter_sublist.map _)

/-- Where an entity schema declares all the fields of a map, the map's fields that are rendered are its fields, each once. -/
theorem FieldMap.names_selected_perm {s : EntitySchema} {m : FieldMap} (h : m.check (.entity s) = .ok ()) :
    ((m.selected (.entity s)).map (·.name)).Perm m.fields.names := by
  have hnodup := FieldMap.nodup_names_selected (Schema.nodup_names_entity s) m
  have hall := (Schema.hasFields_iff _ _).1 ((m.check_eq_ok_iff (.entity s)).1 h)
  rw [List.perm_ext_iff_of_nodup hnodup m.fields.nodup_names]
  intro name
  rw [m.mem_names_selected_iff]
  exact ⟨fun hname => hname.2, fun hname => ⟨hall name hname, hname⟩⟩

/-- Where an entity schema declares all the fields of a map, its fields that are rendered have its values: together they are its
entries, in the schema's order. -/
theorem FieldMap.selected_perm_entries {s : EntitySchema} {m : FieldMap} (h : m.check (.entity s) = .ok ()) :
    ((m.selected (.entity s)).map fun f => (f.name, (m.fields.get? f.name).getD .null)).Perm m.fields.entries := by
  have hentries : (m.fields.names.map fun name => (name, (m.fields.get? name).getD .null)) = m.fields.entries := by
    rw [Bindings.names, List.map_map]
    refine (List.map_congr_left fun e he => ?_).trans (List.map_id _)
    rw [Function.comp_apply, m.fields.get?_of_mem he]
    rfl
  have hperm := (FieldMap.names_selected_perm h).map fun name => (name, (m.fields.get? name).getD .null)
  rwa [List.map_map, hentries] at hperm

end WhereClause
