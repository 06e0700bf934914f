import Mathlib.Data.List.DropRight
import Mathlib.Order.Bounds.Basic
import WhereClause.Proofs.Lookup

/-!
# Flaws: which fields make no entity schema

An entity schema is made of its fields one by one, and the first field whose name is in the index already is a flaw. What is in the
index at that point are the names of the fields before (`FieldIndex.extend_eq_error_iff`), so that the flaw is found at the first
place at which a name is repeated (`Field.isLeast_repeatsAt_iff`). A blank name comes before all else. There is no other reason for
which fields make no schema (`EntitySchema.ofFields_first_flaw`).
-/

namespace WhereClause

/-! ## Trimming -/

/-- A text is nothing but white space exactly when nothing is left of it without the white space it starts and ends with. -/
theorem Text.trim_eq_nil_iff (s : List Char) : Text.trim s = [] ↔ ∀ c ∈ s, Text.isBlank c = true := by
  have hleft : ∀ s : List Char, Text.trimLeft s = [] ↔ ∀ c ∈ s, Text.isBlank c = true := fun s => List.dropWhile_eq_nil_iff
  have htwice : Text.trimLeft (Text.trimLeft s) = Text.trimLeft s := List.dropWhile_idempotent Text.isBlank s
  calc Text.trim s = []
    _ ↔ ∀ c ∈ Text.trimLeft s, Text.isBlank c = true := by
      rw [Text.trim, List.reverse_eq_nil_iff, hleft]
      simp only [List.mem_reverse]
    _ ↔ ∀ c ∈ s, Text.isBlank c = true := by rw [← hleft, htwice, hleft]

/-! ## Repeated names -/

/-- The field at a place repeats the name of a field at an earlier place. -/
def Field.RepeatsAt (fields : List Field) (i : Nat) : Prop :=
  ∃ f, fields[i]? = some f ∧ ∃ j < i, ∃ g, fields[j]? = some g ∧ g.name = f.name

/-- Fields after a place do not matter for whether the field there repeats a name. -/
theorem Field.repeatsAt_append {before : List Field} {i : Nat} (hi : i < before.length) (after : List Field) :
    Field.RepeatsAt (before ++ after) i ↔ Field.RepeatsAt before i := by
  have hbefore : ∀ j ≤ i, (before ++ after)[j]? = before[j]? :=
    fun j hj => List.getElem?_append_left (Nat.lt_of_le_of_lt hj hi)
  unfold Field.RepeatsAt
  rw [hbefore i (Nat.le_refl i)]
  refine exists_congr fun f => and_congr_right fun _ => exists_congr fun j => and_congr_right fun hj => ?_
  rw [hbefore j (Nat.le_of_lt hj)]

/-- The names of fields are distinct exactly when no field repeats the name of an earlier one. -/
theorem Field.nodup_names_iff (fields : List Field) : (fields.map (·.name)).Nodup ↔ ∀ i, ¬ Field.RepeatsAt fields i := by
  rw [List.nodup_iff_getElem?_ne_getElem?]
  constructor
  · rintro h i ⟨f, hf, j, hj, g, hg, hname⟩
    have hi : i < (fields.map (·.name)).length := by
      rw [List.length_map]
      exact (List.getElem?_eq_some_iff.1 hf).1
    refine h j i hj hi ?_
    rw [List.getElem?_map, List.getElem?_map, hf, hg, Option.map_some, Option.map_some, hname]
  · intro h j i hj hi heq
    rw [List.length_map] at hi
    rw [List.getElem?_map, List.getElem?_map, List.getElem?_eq_getElem hi, List.getElem?_eq_getElem (hj.trans hi)] at heq
    exact h i ⟨fields[i], List.getElem?_eq_getElem hi, j, hj, fields[j], List.getElem?_eq_getElem (hj.trans hi),
      Option.some.inj heq⟩

/-- The first place at which a name is repeated is the one before which the names are distinct and the name there is one of
them. -/
theorem Field.isLeast_repeatsAt_iff (fields : List Field) (i : Nat) (f : Field) :
    IsLeast {i | Field.RepeatsAt fields i} i ∧ fields[i]? = some f ↔
      ∃ before after, fields = before ++ f :: after ∧ before.length = i ∧ (before.map (·.name)).Nodup ∧
        f.name ∈ before.map (·.name) := by
  constructor
  · rintro ⟨⟨⟨f', hf', j, hj, g, hg, hname⟩, hleast⟩, hf⟩
    obtain rfl := Option.some.inj (hf'.symm.trans hf)
    obtain ⟨hi, rfl⟩ := List.getElem?_eq_some_iff.1 hf
    have hlength : (fields.take i).length = i := List.length_take_of_le (Nat.le_of_lt hi)
    have hsplit : fields = fields.take i ++ fields[i] :: fields.drop (i + 1) := by
      rw [List.getElem_cons_drop, List.take_append_drop]
    refine ⟨fields.take i, fields.drop (i + 1), hsplit, hlength, ?_, ?_⟩
    · rw [Field.nodup_names_iff]
      intro k hk
      have hlt : k < i := by
        obtain ⟨g, hg, -⟩ := hk
        have := (List.getElem?_eq_some_iff.1 hg).1
        omega
      rw [← Field.repeatsAt_append (hlength.symm ▸ hlt) (fields[i] :: fields.drop (i + 1)), ← hsplit] at hk
      have := hleast hk
      omega
    · rw [← hname]
      refine List.mem_map_of_mem (List.mem_of_getElem? (i := j) ?_)
      rw [List.getElem?_take_of_lt hj, hg]
  · rintro ⟨before, after, rfl, rfl, hnodup, hmem⟩
    have hat : (before ++ f :: after)[before.length]? = some f := by simp
    obtain ⟨g, hg, hname⟩ := List.mem_map.1 hmem
    obtain ⟨j, hj⟩ := List.mem_iff_getElem?.1 hg
    have hlt : j < before.length := (List.getElem?_eq_some_iff.1 hj).1
    refine ⟨⟨⟨f, hat, j, hlt, g, ?_, hname⟩, fun k hk => ?_⟩, hat⟩
    · rw [List.getElem?_append_left hlt, hj]
    · refine Nat.le_of_not_lt fun hklt => ?_
      exact (Field.nodup_names_iff before).1 hnodup k ((Field.repeatsAt_append hklt _).1 hk)

/-! ## The index -/

/-- A field is the first whose name clashes: the index holds its name or a field before it has its name, while the names of the
fields before it are distinct and new to the index. -/
structure FieldIndex.ClashesAfter (index : FieldIndex) (before : List Field) (f : Field) : Prop where
  nodup : (before.map (·.name)).Nodup
  fresh : ∀ name ∈ before.map (·.name), index.contains name = false
  held : index.contains f.name = true ∨ f.name ∈ before.map (·.name)

theorem FieldIndex.clashesAfter_nil_iff (index : FieldIndex) (f : Field) :
    index.ClashesAfter [] f ↔ index.contains f.name = true := by
  constructor
  · intro h
    exact h.held.resolve_right List.not_mem_nil
  · intro h
    exact ⟨List.nodup_nil, fun name hname => absurd hname List.not_mem_nil, .inl h⟩

/-- The first of the fields before a clash is new to the index, and with its name in the index the clash is the same. -/
theorem FieldIndex.clashesAfter_cons_iff (index : FieldIndex) (g : Field) (before : List Field) (f : Field) (position : Nat) :
    index.ClashesAfter (g :: before) f ↔
      index.contains g.name = false ∧ FieldIndex.ClashesAfter (index.insert g.name position) before f := by
  constructor
  · rintro ⟨hnodup, hfresh, hheld⟩
    rw [List.map_cons, List.nodup_cons] at hnodup
    rw [List.map_cons, List.forall_mem_cons] at hfresh
    rw [List.map_cons, List.mem_cons] at hheld
    refine ⟨hfresh.1, hnodup.2, ?_, ?_⟩
    · intro name hname
      rw [FieldIndex.contains_insert_eq_false_iff]
      exact ⟨fun h => hnodup.1 (h ▸ hname), hfresh.2 name hname⟩
    · rw [FieldIndex.contains_insert_iff]
      rcases hheld with hheld | hheld | hheld
      · exact .inl (.inr hheld)
      · exact .inl (.inl hheld.symm)
      · exact .inr hheld
  · rintro ⟨hg, hnodup, hfresh, hheld⟩
    have hnew : ∀ name ∈ before.map (·.name), g.name ≠ name ∧ index.contains name = false :=
      fun name hname => (FieldIndex.contains_insert_eq_false_iff index g.name name position).1 (hfresh name hname)
    rw [FieldIndex.contains_insert_iff] at hheld
    refine ⟨?_, ?_, ?_⟩
    · rw [List.map_cons, List.nodup_cons]
      exact ⟨fun hmem => (hnew g.name hmem).1 rfl, hnodup⟩
    · rw [List.map_cons, List.forall_mem_cons]
      exact ⟨hg, fun name hname => (hnew name hname).2⟩
    · rw [List.map_cons, List.mem_cons]
      rcases hheld with (hheld | hheld) | hheld
      · exact .inr (.inl hheld.symm)
      · exact .inl hheld
      · exact .inr (.inr hheld)

/-- Extending an index by fields fails exactly when the name of some field clashes, and the flaw is that of the first field whose
name does. -/
theorem FieldIndex.extend_eq_error_iff {entity : String} {index : FieldIndex} {position : Nat} {fields : List Field}
    {flaw : SchemaFlaw} :
    FieldIndex.extend entity index position fields = .error flaw ↔
      ∃ before f after, fields = before ++ f :: after ∧ flaw = .duplicateField entity f.name ∧ index.ClashesAfter before f := by
  induction fields generalizing index position with
  | nil =>
    rw [FieldIndex.extend]
    constructor
    · intro h
      cases h
    · rintro ⟨before, f, after, h, -⟩
      simp at h
  | cons g rest ih =>
    rw [FieldIndex.extend]
    split
    · rename_i hg
      constructor
      · intro h
        exact ⟨[], g, rest, rfl, (Except.error.inj h).symm, (index.clashesAfter_nil_iff g).2 hg⟩
      · rintro ⟨before, f, after, hfields, rfl, hclash⟩
        cases before with
        | nil =>
          obtain ⟨rfl, -⟩ := List.cons.inj hfields
          rfl
        | cons b before =>
          obtain ⟨rfl, -⟩ := List.cons.inj hfields
          have hnew := ((index.clashesAfter_cons_iff g before f position).1 hclash).1
          exact absurd hg (Bool.eq_false_iff.1 hnew)
    · rename_i hg
      rw [ih]
      constructor
      · rintro ⟨before, f, after, rfl, rfl, hclash⟩
        exact ⟨g :: before, f, after, rfl, rfl,
          (index.clashesAfter_cons_iff g before f position).2 ⟨Bool.eq_false_iff.2 hg, hclash⟩⟩
      · rintro ⟨before, f, after, hfields, rfl, hclash⟩
        cases before with
        | nil =>
          obtain ⟨rfl, -⟩ := List.cons.inj hfields
          exact absurd ((index.clashesAfter_nil_iff g).1 hclash) hg
        | cons b before =>
          obtain ⟨rfl, rfl⟩ := List.cons.inj hfields
          exact ⟨before, f, after, rfl, rfl, ((index.clashesAfter_cons_iff g before f position).1 hclash).2⟩

/-! ## Entity schemas -/

/-- Extending the index that holds nothing fails exactly when a name is repeated, and the flaw is that of the first field that
repeats one. -/
theorem FieldIndex.extend_empty_eq_error_iff {entity : String} {fields : List Field} {flaw : SchemaFlaw} :
    FieldIndex.extend entity ∅ 0 fields = .error flaw ↔
      ∃ i f, IsLeast {i | Field.RepeatsAt fields i} i ∧ fields[i]? = some f ∧ flaw = .duplicateField entity f.name := by
  have hempty : ∀ name, (∅ : FieldIndex).contains name = false := fun name => Std.TreeMap.contains_emptyc
  rw [FieldIndex.extend_eq_error_iff]
  constructor
  · rintro ⟨before, f, after, hfields, hflaw, hclash⟩
    have hmem : f.name ∈ before.map (·.name) := hclash.held.resolve_left fun h => by
      rw [hempty] at h
      nomatch h
    obtain ⟨hleast, hat⟩ := (Field.isLeast_repeatsAt_iff fields _ f).2 ⟨before, after, hfields, rfl, hclash.nodup, hmem⟩
    exact ⟨_, f, hleast, hat, hflaw⟩
  · rintro ⟨i, f, hleast, hat, hflaw⟩
    obtain ⟨before, after, hfields, -, hnodup, hmem⟩ := (Field.isLeast_repeatsAt_iff fields i f).1 ⟨hleast, hat⟩
    exact ⟨before, f, after, hfields, hflaw, hnodup, fun name _ => hempty name, .inr hmem⟩

/-- Of a name and fields there is a blank name, or a schema of fields with distinct names, or the first repeated name. -/
theorem EntitySchema.ofFields_cases (name : String) (fields : List Field) :
    (Text.trim name.toList = [] ∧ EntitySchema.ofFields name fields = .error .blankName) ∨
    (Text.trim name.toList ≠ [] ∧ (fields.map (·.name)).Nodup ∧ ∃ s, EntitySchema.ofFields name fields = .ok s) ∨
    (Text.trim name.toList ≠ [] ∧ ¬ (fields.map (·.name)).Nodup ∧
      ∃ i f, IsLeast {i | Field.RepeatsAt fields i} i ∧ fields[i]? = some f ∧
        EntitySchema.ofFields name fields = .error (.duplicateField name f.name)) := by
  unfold EntitySchema.ofFields
  split
  · rename_i hblank
    rw [Text.blankText, List.isEmpty_iff] at hblank
    exact .inl ⟨hblank, rfl⟩
  · rename_i hblank
    rw [Text.blankText, List.isEmpty_iff] at hblank
    split
    · rename_i flaw h
      obtain ⟨i, f, hleast, hat, rfl⟩ := FieldIndex.extend_empty_eq_error_iff.1 h
      have hrepeated : ¬ (fields.map (·.name)).Nodup := fun hnodup => (Field.nodup_names_iff fields).1 hnodup i hleast.1
      exact .inr (.inr ⟨hblank, hrepeated, i, f, hleast, hat, rfl⟩)
    · rename_i index h
      exact .inr (.inl ⟨hblank, (FieldIndex.nodup_extend h).1, _, rfl⟩)

/-- Of any name and fields, given all at once or declared one after the other: the flaw is a blank name exactly when nothing but
white space is in the name, whatever the fields are. Of a name that is not blank there is a schema exactly when the names of the
fields are distinct, and if they are not, the flaw is the name, for the entity as it was named, of the field at the first place at
which a name is repeated. -/
theorem EntitySchema.ofFields_first_flaw (name : String) (fields : List Field) :
    (EntitySchema.ofFields name fields = .error .blankName ↔ Text.trim name.toList = []) ∧
    (Text.trim name.toList = [] ↔ ∀ c ∈ name.toList, Text.isBlank c = true) ∧
    ((∃ s, EntitySchema.ofFields name fields = .ok s) ↔ Text.trim name.toList ≠ [] ∧ (fields.map (·.name)).Nodup) ∧
    (Text.trim name.toList = [] ∨ (fields.map (·.name)).Nodup ∨
      ∃ i f, IsLeast {i | Field.RepeatsAt fields i} i ∧ fields[i]? = some f ∧
        EntitySchema.ofFields name fields = .error (.duplicateField name f.name)) ∧
    (fields.foldl (fun b f => b.field f.name f.type) (EntitySchema.builder name)).build =
      EntitySchema.ofFields name fields := by
  have htrim := Text.trim_eq_nil_iff name.toList
  have hbuild := EntitySchema.build_foldl_field name fields
  rcases EntitySchema.ofFields_cases name fields with
    ⟨hblank, h⟩ | ⟨hblank, hnodup, s, h⟩ | ⟨hblank, hrepeated, i, f, hleast, hat, h⟩
  · refine ⟨⟨fun _ => hblank, fun _ => h⟩, htrim, ⟨?_, fun hok => absurd hblank hok.1⟩, .inl hblank, hbuild⟩
    rintro ⟨s, hs⟩
    rw [h] at hs
    nomatch hs
  · refine ⟨⟨?_, fun hb => absurd hb hblank⟩, htrim, ⟨fun _ => ⟨hblank, hnodup⟩, fun _ => ⟨s, h⟩⟩, .inr (.inl hnodup), hbuild⟩
    intro herror
    rw [h] at herror
    nomatch herror
  · refine ⟨⟨?_, fun hb => absurd hb hblank⟩, htrim, ⟨?_, fun hok => absurd hok.2 hrepeated⟩,
      .inr (.inr ⟨i, f, hleast, hat, h⟩), hbuild⟩
    · intro herror
      rw [h] at herror
      nomatch herror
    · rintro ⟨s, hs⟩
      rw [h] at hs
      nomatch hs

/-- Of two overlapping repetitions the one that is complete first counts, names differ if the case of a letter does, and a name
with white space around it stays as it is. -/
example :
    EntitySchema.ofFields " t " [⟨"a", .int⟩, ⟨"b", .int⟩, ⟨"A", .int⟩, ⟨"b", .char⟩, ⟨"a", .int⟩] =
      .error (.duplicateField " t " "b") ∧
    EntitySchema.ofFields "\u3000\t" [⟨"a", .int⟩, ⟨"a", .int⟩] = .error .blankName :=
  ⟨rfl, rfl⟩

end WhereClause
