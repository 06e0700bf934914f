import Mathlib.Data.List.Nodup
import WhereClause.Proofs.Declared
import WhereClause.Proofs.Records

/-!
# Lookup: the index answers as going through the fields does

An entity schema keeps its fields twice: in order, and by their names in an index that is not stored but made anew whenever a
schema is made. However a schema came to be (`EntitySchema.Origin`), the two agree: every question gets the answer that going
through the positions from the front gets (`EntitySchema.Origin.answers_scanned`).
-/

namespace WhereClause

/-! ## Going through the positions -/

theorem Schema.fields_scanned (s : Schema) : s.scanned.fields = s.fields := by
  have hsize : s.scanned.size = s.size := by rw [Schema.scanned, Schema.size, List.length_map, List.length_range]
  unfold Schema.fields
  rw [hsize]
  refine List.filterMap_congr fun i hi => ?_
  rw [Schema.scanned, Schema.column?, List.getElem?_map, List.getElem?_range (List.mem_range.1 hi)]
  rfl

theorem Schema.field?_scanned (s : Schema) (name : String) : s.scanned.field? name = s.field? name := by
  rw [Schema.field?_eq_find?, Schema.field?_eq_find?, Schema.fields_scanned]

theorem Schema.hasField_scanned (s : Schema) (name : String) : s.scanned.hasField name = s.hasField name := by
  rw [Schema.hasField, Schema.hasField, Schema.field?_scanned]

/-- A schema asked through its positions has all of some names stand for fields exactly when it has so without. -/
theorem Schema.hasFields_scanned (s : Schema) (names : List String) : s.scanned.hasFields names = s.hasFields names := by
  rw [Bool.eq_iff_iff, Schema.hasFields_iff, Schema.hasFields_iff, Schema.fields_scanned]

/-! ## One field to a name -/

/-- The field that a name stands for is the one field of that name. -/
theorem EntitySchema.field?_eq_some_iff (s : EntitySchema) (name : String) (f : Field) :
    s.field? name = some f ↔ f ∈ s.fields ∧ f.name = name ∧ ∀ g ∈ s.fields, g.name = name → g = f := by
  rw [s.field?_eq_find?]
  have hinj : ∀ g ∈ s.fields, ∀ g' ∈ s.fields, g.name = g'.name → g = g' :=
    fun g hg g' hg' h => List.inj_on_of_nodup_map s.nodup_names hg hg' h
  constructor
  · intro h
    have hf := List.mem_of_find?_eq_some h
    have hname : f.name = name := by
      have := List.find?_some h
      exact beq_iff_eq.1 this
    exact ⟨hf, hname, fun g hg hgname => hinj g hg f hf (hgname.trans hname.symm)⟩
  · rintro ⟨hf, hname, hunique⟩
    cases hfound : s.fields.find? fun g => g.name == name with
    | none =>
      have := List.find?_eq_none.1 hfound f hf
      exact absurd (beq_iff_eq.2 hname) this
    | some g =>
      have hg : g.name = name := by
        have := List.find?_some hfound
        exact beq_iff_eq.1 this
      rw [hunique g (List.mem_of_find?_eq_some hfound) hg]

/-! ## Making a schema -/

/-- A schema that is made has the name and the fields that it was made of. -/
theorem EntitySchema.of_ofFields {name : String} {fields : List Field} {s : EntitySchema}
    (h : EntitySchema.ofFields name fields = .ok s) : s.name = name ∧ s.fields = fields := by
  unfold EntitySchema.ofFields at h
  split at h
  · nomatch h
  · split at h
    · nomatch h
    · cases h
      exact ⟨rfl, rfl⟩

/-- A schema is made of its own name and fields. -/
theorem EntitySchema.ofFields_self (s : EntitySchema) : EntitySchema.ofFields s.name s.fields = .ok s := by
  obtain ⟨name, fields, index, named, indexed⟩ := s
  unfold EntitySchema.ofFields
  rw [dif_neg (by rw [named]; exact Bool.false_ne_true)]
  split
  · rename_i flaw h
    rw [indexed] at h
    nomatch h
  · rename_i index' h
    rw [indexed] at h
    cases h
    rfl

/-- Fields declared one after the other are those that the schema is made of. -/
theorem EntitySchema.build_foldl_field (name : String) (fields : List Field) :
    (fields.foldl (fun b f => b.field f.name f.type) (EntitySchema.builder name)).build =
      EntitySchema.ofFields name fields := by
  have hfold : ∀ (fields declared : List Field),
      fields.foldl (fun b f => b.field f.name f.type) (⟨name, declared⟩ : EntitySchema.Builder) =
        ⟨name, declared ++ fields⟩ := by
    intro fields
    induction fields with
    | nil => exact fun declared => by rw [List.foldl_nil, List.append_nil]
    | cons f fields ih =>
      intro declared
      rw [List.foldl_cons, EntitySchema.Builder.field, ih, List.append_assoc]
      rfl
  rw [EntitySchema.builder, hfold, List.nil_append]
  rfl

/-- A schema that is read has the name and the fields that the document describes. -/
theorem EntitySchema.described_of_ofDraft {source : Draft.Source} {d : Draft} {s : EntitySchema}
    (h : EntitySchema.ofDraft source d = .ok s) : EntitySchema.described? d = some (s.name, s.fields) := by
  obtain ⟨⟨name, fields⟩, hdeclared, h⟩ := bind_eq_ok_iff.1 h
  obtain ⟨hname, hfields⟩ := EntitySchema.of_ofFields (mapError_eq_ok_iff.1 h)
  rw [hname, hfields]
  exact EntitySchema.described_of_declarationOfDraft hdeclared

/-- What is made of a text is made of the draft of the text, to which nothing is added. -/
theorem Draft.decode_eq_ok_iff {α : Type} {make : Draft.Source → Draft → Except Fault α} {text : String} {x : α} :
    Draft.decode make text = .ok x ↔ make .fresh (Draft.read text).value = .ok x ∧ (Draft.read text).ends = true := by
  unfold Draft.decode
  rw [bind_eq_ok_iff]
  constructor
  · rintro ⟨y, hy, h⟩
    split at h
    · rename_i hends
      cases h
      exact ⟨hy, hends⟩
    · nomatch h
  · rintro ⟨hx, hends⟩
    exact ⟨x, hx, by rw [if_pos hends]; rfl⟩

/-- A schema that is loaded has the name and the fields that the document describes. -/
theorem EntitySchema.described_of_load {text : String} {s : EntitySchema} (h : EntitySchema.load text = .ok s) :
    EntitySchema.described? (Draft.read text).value = some (s.name, s.fields) := by
  obtain ⟨⟨name, fields⟩, hdeclared, h⟩ := bind_eq_ok_iff.1 h
  obtain ⟨hname, hfields⟩ := EntitySchema.of_ofFields (mapError_eq_ok_iff.1 h)
  rw [hname, hfields]
  exact EntitySchema.described_of_declarationOfDraft (Draft.decode_eq_ok_iff.1 (mapError_eq_ok_iff.1 hdeclared)).1

/-- However a schema came to be, it has the name and the fields that were given, in the order given. -/
theorem EntitySchema.Origin.given_of_schema {origin : EntitySchema.Origin} {s : EntitySchema} (h : origin.schema? = some s) :
    origin.given? = some (s.name, s.fields) := by
  have hok : ∀ {ε : Type} {x : Except ε EntitySchema}, x.toOption = some s → x = .ok s := by
    intro ε x hx
    cases x with
    | error e => nomatch hx
    | ok s' => exact congrArg Except.ok (Option.some.inj hx)
  cases origin with
  | given name fields =>
    obtain ⟨rfl, rfl⟩ := EntitySchema.of_ofFields (hok h)
    rfl
  | built name fields =>
    have hbuilt := hok h
    rw [EntitySchema.build_foldl_field] at hbuilt
    obtain ⟨rfl, rfl⟩ := EntitySchema.of_ofFields hbuilt
    rfl
  | read source d => exact EntitySchema.described_of_ofDraft (hok h)
  | decoded text => exact EntitySchema.described_of_ofDraft (Draft.decode_eq_ok_iff.1 (hok h)).1
  | loaded text => exact EntitySchema.described_of_load (hok h)

/-- However an entity schema came to be, its name and its fields in order are those that were given. The name is not blank,
the names of the fields are distinct, and there is a field at each position below their number and at no other. What is asked
by name is answered as if there were no index and the positions were gone through from the front: which field a name stands
for, whether it stands for one, and whether all of some names do. So a name stands for a field exactly when that is the one
declared field of the name. -/
theorem EntitySchema.Origin.answers_scanned {origin : EntitySchema.Origin} {s : EntitySchema} (h : origin.schema? = some s) :
    origin.given? = some ((Schema.entity s).entityName, (Schema.entity s).fields) ∧
    Text.blankText (Schema.entity s).entityName = false ∧
    ((Schema.entity s).fields.map (·.name)).Nodup ∧
    (∀ i, ((Schema.entity s).column? i).isSome = true ↔ i < (Schema.entity s).size) ∧
    (∀ name, (Schema.entity s).field? name = (Schema.entity s).scanned.field? name ∧
      (Schema.entity s).hasField name = (Schema.entity s).scanned.hasField name) ∧
    (∀ names, (Schema.entity s).hasFields names = (Schema.entity s).scanned.hasFields names) ∧
    (∀ name f, (Schema.entity s).field? name = some f ↔
      f ∈ (Schema.entity s).fields ∧ f.name = name ∧ ∀ g ∈ (Schema.entity s).fields, g.name = name → g = f) := by
  have hgiven := EntitySchema.Origin.given_of_schema h
  refine ⟨?_, s.named, ?_, fun i => ?_, fun name => ⟨?_, ?_⟩, fun names => ?_, fun name f => ?_⟩
  · rw [Schema.fields_entity]
    exact hgiven
  · rw [Schema.fields_entity]
    exact s.nodup_names
  · rw [Schema.column?, Schema.size, Option.isSome_iff_ne_none, ne_eq, List.getElem?_eq_none_iff, Nat.not_le]
  · exact (Schema.field?_scanned _ name).symm
  · exact (Schema.hasField_scanned _ name).symm
  · exact (Schema.hasFields_scanned _ names).symm
  · rw [Schema.fields_entity]
    exact s.field?_eq_some_iff name f

/-- A text with one field as an object, its members in another order, and one as an array, their types by other names than their
own. -/
def EntitySchema.Origin.itemText : EntitySchema.Origin :=
  .decoded "[\"item\",[\x7b\"data_type\":\"int8\",\"name\":\"id\"\x7d,[\"label\",\"character varying(40)\"]]]"

/-- What the text describes is what the schema has, and its index answers for it. -/
theorem EntitySchema.Origin.answers_scanned_itemText :
    ∃ s, EntitySchema.Origin.itemText.schema? = some s ∧
      (Schema.entity s).entityName = "item" ∧
      (Schema.entity s).fields = [⟨"id", .long⟩, ⟨"label", .varChar⟩] ∧
      (Schema.entity s).field? "label" = (Schema.entity s).scanned.field? "label" ∧
      (Schema.entity s).hasFields ["label", "id", "size"] = (Schema.entity s).scanned.hasFields ["label", "id", "size"] := by
  have hmade : EntitySchema.Origin.itemText.schema?.isSome = true := by decide +kernel
  have hgiven : EntitySchema.Origin.itemText.given? = some ("item", [⟨"id", .long⟩, ⟨"label", .varChar⟩]) := by decide +kernel
  obtain ⟨s, hs⟩ := Option.isSome_iff_exists.1 hmade
  obtain ⟨hname, -, -, -, hfield, hfields, -⟩ := EntitySchema.Origin.answers_scanned hs
  rw [hgiven] at hname
  obtain ⟨hname, hdeclared⟩ := Prod.mk.inj (Option.some.inj hname)
  exact ⟨s, hs, hname.symm, hdeclared.symm, (hfield "label").1, hfields _⟩

end WhereClause
