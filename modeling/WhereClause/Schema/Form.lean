import WhereClause.Json.Decode
import WhereClause.Renderer
import WhereClause.Value.Form

/-!
# Form of schemas: column types, fields, schemas and parameters as JSON

A column type is a string: it is written by its canonical name and read under any. A field is a record of its name and its
type; a schema is a record of its name and its fields, and is checked when the record has been read to its end. A parameter is
a record of its field, which may be left out, and its value.
-/

namespace WhereClause

/-- A column type as JSON. -/
def ColumnType.toJson (t : ColumnType) : Json := .string t.sqlName

/-- The column type that a draft names. -/
def ColumnType.ofDraft (source : Draft.Source) (d : Draft) : Except Fault ColumnType := do
  (ColumnType.resolve (← d.toText)).mapError (.flawed · source.isPart)

/-- A field as JSON. -/
def Field.toJson (f : Field) : Json := .object [("name", .string f.name), ("data_type", f.type.toJson)]

/-- A field under construction. -/
structure Field.Parts where
  name : Option String
  type : Option ColumnType

/-- The members of a field. -/
def Field.slots (source : Draft.Source) : List (Draft.Slot Field.Parts) :=
  [⟨"name", fun p => p.name.isSome, fun p d => d.toText.map fun x => { p with name := some x }⟩,
   ⟨"data_type", fun p => p.type.isSome, fun p d => (ColumnType.ofDraft source d).map fun x => { p with type := some x }⟩]

/-- A field of its parts. -/
def Field.ofParts (missing : String → Fault) (p : Field.Parts) : Except Fault Field := do
  return ⟨← Draft.need missing "name" p.name, ← Draft.need missing "data_type" p.type⟩

/-- The field that a draft holds. -/
def Field.ofDraft (source : Draft.Source) (d : Draft) : Except Fault Field :=
  d.toRecord Field.slots Draft.ignoreOther ⟨none, none⟩ Field.ofParts source

/-! ## Schemas -/

/-- A schema as JSON. -/
def EntitySchema.toJson (s : EntitySchema) : Json :=
  .object [("name", .string s.name), ("fields", .array (s.fields.map Field.toJson))]

/-- A schema under construction. -/
structure EntitySchema.Parts where
  name : Option String
  fields : Option (List Field)

/-- The members of a schema. -/
def EntitySchema.slots (source : Draft.Source) : List (Draft.Slot EntitySchema.Parts) :=
  [⟨"name", fun p => p.name.isSome, fun p d => d.toText.map fun x => { p with name := some x }⟩,
   ⟨"fields", fun p => p.fields.isSome, fun p d => (d.toList Field.ofDraft source).map fun x => { p with fields := some x }⟩]

/-- The name and the fields of a schema, of its parts. -/
def EntitySchema.ofParts (missing : String → Fault) (p : EntitySchema.Parts) : Except Fault (String × List Field) := do
  return (← Draft.need missing "name" p.name, ← Draft.need missing "fields" p.fields)

/-- The name and the fields of a schema that a draft holds, not checked. -/
def EntitySchema.declarationOfDraft (source : Draft.Source) (d : Draft) : Except Fault (String × List Field) :=
  d.toRecord EntitySchema.slots Draft.ignoreOther ⟨none, none⟩ EntitySchema.ofParts source

/-- The schema that a draft holds, checked as soon as it has been read. -/
def EntitySchema.ofDraft (source : Draft.Source) (d : Draft) : Except Fault EntitySchema := do
  let (name, fields) ← EntitySchema.declarationOfDraft source d
  (EntitySchema.ofFields name fields).mapError (.flawed · source.isPart)

/-- Why a text is not loaded as a schema: it is not read, or what it declares is flawed. -/
inductive SchemaFault where
  | document (fault : Fault)
  | flawed (flaw : SchemaFlaw)
  deriving DecidableEq

/-- The schema that a text declares, checked when the text has been read to its end. -/
def EntitySchema.load (text : String) : Except SchemaFault EntitySchema := do
  let (name, fields) ← (Draft.decode EntitySchema.declarationOfDraft text).mapError .document
  (EntitySchema.ofFields name fields).mapError .flawed

/-- What keeps a text from being loaded, in words, if it has a wording. -/
def SchemaFault.message? : SchemaFault → Option String
  | .document fault => fault.message?.map fun m => "Invalid schema document: " ++ m
  | .flawed flaw => some flaw.message

/-! ## Parameters -/

/-- A parameter as JSON. -/
def Parameter.toJson (p : Parameter) : Json :=
  .object [("field", match p.field with
    | some f => f.toJson
    | none => .null), ("value", p.value.toJson)]

/-- A parameter under construction: whether there is a field is known once the member for it has been read. -/
structure Parameter.Parts where
  field : Option (Option Field)
  value : Option Value

/-- The members of a parameter. -/
def Parameter.slots (source : Draft.Source) : List (Draft.Slot Parameter.Parts) :=
  [⟨"field", fun p => p.field.isSome, fun p d => (d.toOption Field.ofDraft source).map fun x => { p with field := some x }⟩,
   ⟨"value", fun p => p.value.isSome, fun p d => (Value.ofDraft source d).map fun x => { p with value := some x }⟩]

/-- A parameter of its parts. A member for the field that is missing from an object is no field. -/
def Parameter.ofParts (missing : String → Fault) (p : Parameter.Parts) : Except Fault Parameter := do
  let field ←
    match p.field, missing "field" with
    | some f, _ => pure f
    | none, .missingField _ => pure none
    | none, fault => throw fault
  return ⟨field, ← Draft.need missing "value" p.value⟩

/-- The parameter that a draft holds. -/
def Parameter.ofDraft (source : Draft.Source) (d : Draft) : Except Fault Parameter :=
  d.toRecord Parameter.slots Draft.ignoreOther ⟨none, none⟩ Parameter.ofParts source

end WhereClause
