import WhereClause.Schema.Form

/-!
# Origin: where a schema comes from, and what it was given

An entity schema is made of a name and fields that the caller gives, field by field or all at once, or of a document. What a
document says of a schema can be told without checking it: the name of the entity, and for each field its name and the name of
its type, in the words of the document (`EntitySchema.wording?`). A schema of either kind can be asked through its positions
alone, as if it had no index (`Schema.scanned`).
-/

namespace WhereClause

/-! ## What a document says -/

/-- The text that a draft is, if it is one. -/
def Draft.text? : Draft → Option String
  | .string s => some s
  | _ => none

/-- The items of an array, if a draft is one. -/
def Draft.items? : Draft → Option (List Draft)
  | .array items => some items
  | _ => none

/-- The member of a record: the first of its name in an object, the one in its place in an array. -/
def Draft.member? (name : String) (place : Nat) : Draft → Option Draft
  | .object members => (members.find? fun m => m.1.text? == some name).map (·.2)
  | .array items => items[place]?
  | _ => none

/-- What a document says of a field: its name, and the name of its type. -/
def Field.wording? (d : Draft) : Option (String × String) := do
  let name ← (← d.member? "name" 0).text?
  let type ← (← d.member? "data_type" 1).text?
  return (name, type)

/-- What a document says of a schema: the name of the entity, and what it says of each field. -/
def EntitySchema.wording? (d : Draft) : Option (String × List (String × String)) := do
  let name ← (← d.member? "name" 0).text?
  let fields ← (← d.member? "fields" 1).items?
  return (name, ← fields.mapM Field.wording?)

/-- The field that a wording describes, if the name of its type names one. -/
def Field.ofWording? (wording : String × String) : Option Field :=
  (ColumnType.ofName? wording.2).map fun type => ⟨wording.1, type⟩

/-- The name and the fields that a document describes, not checked. -/
def EntitySchema.described? (d : Draft) : Option (String × List Field) := do
  let (name, wordings) ← EntitySchema.wording? d
  return (name, ← wordings.mapM Field.ofWording?)

/-! ## Ways to a schema -/

/-- A way in which an entity schema is made. -/
inductive EntitySchema.Origin where
  /-- Of a name and fields. -/
  | given (name : String) (fields : List Field)
  /-- Of a name, with fields declared one after the other. -/
  | built (name : String) (fields : List Field)
  /-- Read from a draft, of a whole text or of a part. -/
  | read (source : Draft.Source) (d : Draft)
  /-- Read from a text that is nothing but the schema. -/
  | decoded (text : String)
  /-- Loaded from a text. -/
  | loaded (text : String)

/-- The schema that is made, if one is. -/
def EntitySchema.Origin.schema? : EntitySchema.Origin → Option EntitySchema
  | .given name fields => (EntitySchema.ofFields name fields).toOption
  | .built name fields => (fields.foldl (fun b f => b.field f.name f.type) (EntitySchema.builder name)).build.toOption
  | .read source d => (EntitySchema.ofDraft source d).toOption
  | .decoded text => (Draft.decode EntitySchema.ofDraft text).toOption
  | .loaded text => (EntitySchema.load text).toOption

/-- The name and the fields that were given: by the caller, or in the words of the document. -/
def EntitySchema.Origin.given? : EntitySchema.Origin → Option (String × List Field)
  | .given name fields => some (name, fields)
  | .built name fields => some (name, fields)
  | .read _ d => EntitySchema.described? d
  | .decoded text => EntitySchema.described? (Draft.read text).value
  | .loaded text => EntitySchema.described? (Draft.read text).value

/-! ## Asking without an index -/

/-- The same schema without its index: whatever it is asked, it goes through its positions from the front. -/
def Schema.scanned (s : Schema) : Schema := .listed s.entityName ((List.range s.size).map s.column?)

end WhereClause
