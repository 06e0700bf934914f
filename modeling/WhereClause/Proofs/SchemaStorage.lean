import Mathlib.Data.List.Forall2
import WhereClause.Proofs.Decoding
import WhereClause.Proofs.Lookup

/-!
# SchemaStorage: schemas that are written and loaded

A schema is stored without its index, its types under their canonical names, and is checked again when it is loaded: in one
way as soon as it has been read, in the other when the text has been read to its end. Both ways give back the schema that was
written, and of any text whatever they give the same schema or none (`EntitySchema.load_eq_ok_iff_decode`). What the text
calls by another name than its own, the schema that was loaded writes by its own (`EntitySchema.stored`).
-/

namespace WhereClause

/-! ## Reading what was written -/

/-- A field is read as it was written. -/
theorem Field.ofDraft_toJson (f : Field) {source deeper : Draft.Source} (hdown : source.down = .ok deeper) :
    Field.ofDraft source f.toJson.draft = .ok f := by
  have htype : ColumnType.ofDraft deeper (.string f.type.sqlName) = .ok f.type :=
    bind_eq_ok_iff.2 ⟨f.type.sqlName, rfl, mapError_eq_ok_iff.2 f.type.resolve_sqlName⟩
  have hnames : ((Field.slots deeper).map (·.name)).Nodup := show ["name", "data_type"].Nodup by decide
  have hmembers : Draft.fillMembers (Field.slots deeper) (Draft.ignoreOther deeper) ⟨none, none⟩
      [(.string "name", .string f.name), (.string "data_type", .string f.type.sqlName)] = .ok ⟨some f.name, some f.type⟩ := by
    refine (Draft.fillMembers_cons hnames (i := 0) rfl rfl rfl _).trans ?_
    exact Draft.fillMembers_cons hnames (i := 1) rfl rfl (congrArg (Except.map _) htype) []
  exact Draft.toRecord_object hdown hmembers rfl

/-- The name and the fields of a schema are read as they were written. -/
theorem EntitySchema.declarationOfDraft_toJson (s : EntitySchema) :
    EntitySchema.declarationOfDraft .fresh s.toJson.draft = .ok (s.name, s.fields) := by
  have hfields : Draft.toList Field.ofDraft (.text 126) (Json.array (s.fields.map Field.toJson)).draft = .ok s.fields :=
    Draft.toList_draft rfl fun f _ => f.ofDraft_toJson rfl
  have hnames : ((EntitySchema.slots (.text 126)).map (·.name)).Nodup := show ["name", "fields"].Nodup by decide
  have hmembers : Draft.fillMembers (EntitySchema.slots (.text 126)) (Draft.ignoreOther (.text 126)) ⟨none, none⟩
      [(.string "name", .string s.name), (.string "fields", (Json.array (s.fields.map Field.toJson)).draft)] =
        .ok ⟨some s.name, some s.fields⟩ := by
    refine (Draft.fillMembers_cons hnames (i := 0) rfl rfl rfl _).trans ?_
    exact Draft.fillMembers_cons hnames (i := 1) rfl rfl (congrArg (Except.map _) hfields) []
  exact Draft.toRecord_object rfl hmembers rfl

/-- No float is written for a schema. -/
theorem EntitySchema.floats_toJson (s : EntitySchema) : s.toJson.floats = [] := by
  have hfields : ∀ fields : List Field, Json.floatsOf (fields.map Field.toJson) = [] := by
    intro fields
    induction fields with
    | nil => rfl
    | cons f fields ih =>
      rw [List.map_cons, Json.floatsOf, ih]
      rfl
  simp only [EntitySchema.toJson, Json.floats, Json.floatsOfEntries, hfields, List.append_nil]

/-- The text of a schema is read to its end as the draft of what was written. -/
theorem EntitySchema.read_text (s : EntitySchema) : Draft.read s.toJson.text = ⟨s.toJson.draft, true⟩ := by
  refine Draft.read_text fun x hx => ?_
  rw [s.floats_toJson] at hx
  nomatch hx

/-! ## The two ways of loading -/

/-- A text is loaded as a schema exactly when it is read to its end and its name and fields make the schema. -/
theorem EntitySchema.load_eq_ok_iff {text : String} {s : EntitySchema} : EntitySchema.load text = .ok s ↔
    ∃ name fields, EntitySchema.declarationOfDraft .fresh (Draft.read text).value = .ok (name, fields) ∧
      (Draft.read text).ends = true ∧ EntitySchema.ofFields name fields = .ok s := by
  unfold EntitySchema.load
  simp only [bind_eq_ok_iff, mapError_eq_ok_iff, Draft.decode_eq_ok_iff, Prod.exists, and_assoc]

/-- A schema that is checked as soon as it has been read is the schema that is loaded. -/
theorem EntitySchema.load_eq_ok_iff_decode {text : String} {s : EntitySchema} :
    EntitySchema.load text = .ok s ↔ Draft.decode EntitySchema.ofDraft text = .ok s := by
  rw [EntitySchema.load_eq_ok_iff, Draft.decode_eq_ok_iff]
  unfold EntitySchema.ofDraft
  simp only [bind_eq_ok_iff, mapError_eq_ok_iff, Prod.exists]
  constructor
  · rintro ⟨name, fields, hdeclared, hends, hmade⟩
    exact ⟨⟨name, fields, hdeclared, hmade⟩, hends⟩
  · rintro ⟨⟨name, fields, hdeclared, hmade⟩, hends⟩
    exact ⟨name, fields, hdeclared, hends, hmade⟩

/-- The text of a schema is loaded as the schema. -/
theorem EntitySchema.load_text (s : EntitySchema) : EntitySchema.load s.toJson.text = .ok s := by
  rw [EntitySchema.load_eq_ok_iff, s.read_text]
  exact ⟨s.name, s.fields, s.declarationOfDraft_toJson, rfl, s.ofFields_self⟩

/-! ## The names of types -/

/-- A schema is written with the canonical name of each type. -/
theorem EntitySchema.wording?_toJson (s : EntitySchema) :
    EntitySchema.wording? s.toJson.draft = some (s.name, s.fields.map fun f => (f.name, f.type.sqlName)) := by
  have hfields : ∀ fields : List Field, (Json.draftItems (fields.map Field.toJson)).mapM Field.wording? =
      some (fields.map fun f => (f.name, f.type.sqlName)) := by
    intro fields
    induction fields with
    | nil => rfl
    | cons f fields ih =>
      rw [List.map_cons, Json.draftItems, List.mapM_cons, ih]
      rfl
  have hname : s.toJson.draft.member? "name" 0 = some (.string s.name) := rfl
  have hmember : s.toJson.draft.member? "fields" 1 = some (.array (Json.draftItems (s.fields.map Field.toJson))) := rfl
  simp only [EntitySchema.wording?, hname, hmember, Draft.text?, Draft.items?, hfields, Option.bind_eq_bind, Option.bind_some,
    Option.pure_def]

/-- Whether one wording of a field has the name that the other has, and the canonical name of the type that the other names. -/
def Field.Canonical (given written : String × String) : Prop :=
  written.1 = given.1 ∧ (ColumnType.ofName? given.2).map ColumnType.sqlName = some written.2

/-- Fields are written with the names of the wordings that describe them and with the canonical names of their types. -/
theorem Field.canonical_of_mapM {wordings : List (String × String)} {fields : List Field}
    (h : wordings.mapM Field.ofWording? = some fields) :
    List.Forall₂ Field.Canonical wordings (fields.map fun f => (f.name, f.type.sqlName)) := by
  induction wordings generalizing fields with
  | nil =>
    cases h
    exact .nil
  | cons w wordings ih =>
    rw [List.mapM_cons] at h
    obtain ⟨f, hf, h⟩ := Option.bind_eq_some_iff.1 h
    obtain ⟨rest, hrest, h⟩ := Option.bind_eq_some_iff.1 h
    cases h
    obtain ⟨type, htype, rfl⟩ := Option.map_eq_some_iff.1 hf
    exact .cons ⟨rfl, by rw [htype, Option.map_some]⟩ (ih hrest)

/-- A schema that was loaded is written with the names of its text and with the canonical names of the types. -/
theorem EntitySchema.canonical_of_load {text : String} {s : EntitySchema} (h : EntitySchema.load text = .ok s) :
    ∃ given written, EntitySchema.wording? (Draft.read text).value = some (s.name, given) ∧
      EntitySchema.wording? (Draft.read s.toJson.text).value = some (s.name, written) ∧
      List.Forall₂ Field.Canonical given written := by
  obtain ⟨⟨name, wordings⟩, hwording, hdescribed⟩ := Option.bind_eq_some_iff.1 (EntitySchema.described_of_load h)
  obtain ⟨fields, hfields, hdescribed⟩ := Option.bind_eq_some_iff.1 hdescribed
  cases hdescribed
  refine ⟨wordings, _, hwording, ?_, Field.canonical_of_mapM hfields⟩
  rw [s.read_text]
  exact s.wording?_toJson

/-- Schemas survive being stored. The text that is written for a schema gives back that very schema, its name, its fields in
order and its index, whichever way it is loaded. Of any text at all, either both ways of loading give the same schema, and
that schema is written with the name and the fields of the text, each type by its canonical name, whatever it is called in the
text; or both fail. -/
theorem EntitySchema.stored :
    (∀ s : EntitySchema, EntitySchema.load s.toJson.text = .ok s ∧ Draft.decode EntitySchema.ofDraft s.toJson.text = .ok s) ∧
    ∀ text, (∃ s given written, EntitySchema.load text = .ok s ∧ Draft.decode EntitySchema.ofDraft text = .ok s ∧
        EntitySchema.wording? (Draft.read text).value = some (s.name, given) ∧
        EntitySchema.wording? (Draft.read s.toJson.text).value = some (s.name, written) ∧
        List.Forall₂ Field.Canonical given written) ∨
      ∃ fault refusal, EntitySchema.load text = .error fault ∧ Draft.decode EntitySchema.ofDraft text = .error refusal := by
  refine ⟨fun s => ⟨s.load_text, EntitySchema.load_eq_ok_iff_decode.1 s.load_text⟩, fun text => ?_⟩
  cases hload : EntitySchema.load text with
  | ok s =>
    obtain ⟨given, written, hgiven, hwritten, hcanonical⟩ := EntitySchema.canonical_of_load hload
    exact .inl ⟨s, given, written, rfl, EntitySchema.load_eq_ok_iff_decode.1 hload, hgiven, hwritten, hcanonical⟩
  | error fault =>
    cases hdecode : Draft.decode EntitySchema.ofDraft text with
    | ok s =>
      rw [EntitySchema.load_eq_ok_iff_decode.2 hdecode] at hload
      nomatch hload
    | error refusal => exact .inr ⟨fault, refusal, rfl, rfl⟩

/-- Whatever a text calls the types, the schema that is loaded from it calls them by their canonical names. -/
example :
    (EntitySchema.load "[\"item\",[[\"id\",\" int8\"],[\"label\",\"character varying(40)\"]]]").toOption.map (·.toJson.text) =
      some ("\x7b\"name\":\"item\",\"fields\":[\x7b\"name\":\"id\",\"data_type\":\"BIGINT\"\x7d," ++
      "\x7b\"name\":\"label\",\"data_type\":\"VARCHAR\"\x7d]\x7d") := by
  decide +kernel

end WhereClause
