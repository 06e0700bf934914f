import Std.Data.TreeMap
import WhereClause.ColumnType

/-!
# Schema: the fields an entity declares

A schema names an entity and lists its fields in order. There are two kinds. An entity schema has been checked: its name is not
blank and its field names are distinct, so that it keeps an index from names to positions and answers by it. A listed schema is
any list of columns, in which there may be gaps and repeated names, and answers by going through the list from the front. What
follows from both is the same: which fields there are (`Schema.fields`), and which field a name stands for (`Schema.field?`).
-/

namespace WhereClause

/-- A field of an entity: its name and the type of its column. -/
structure Field where
  name : String
  type : ColumnType
  deriving DecidableEq

/-- What is wrong with a schema: a type name that names no type, a field declared twice, an entity without a name. -/
inductive SchemaFlaw where
  | unknownType (name : String)
  | duplicateField (entity field : String)
  | blankName
  deriving DecidableEq

/-- The words that the account of a flaw opens with, whatever the names are. -/
def SchemaFlaw.opening : SchemaFlaw → String
  | .unknownType _ => "Unknown data type: "
  | .duplicateField _ _ => "Duplicate field '"
  | .blankName => "Entity schema name must not be empty"

/-- A flaw in words. -/
def SchemaFlaw.message (flaw : SchemaFlaw) : String :=
  match flaw with
  | .unknownType name => flaw.opening ++ name
  | .duplicateField entity field => flaw.opening ++ field ++ "' in entity '" ++ entity ++ "'"
  | .blankName => flaw.opening

/-- The type that a name names. -/
def ColumnType.resolve (name : String) : Except SchemaFlaw ColumnType :=
  match ColumnType.ofName? name with
  | some t => .ok t
  | none => .error (.unknownType name)

/-- A name resolves to a type exactly when it names that type. -/
theorem ColumnType.resolve_eq_ok_iff {name : String} {t : ColumnType} :
    ColumnType.resolve name = .ok t ↔ ColumnType.ofName? name = some t := by
  unfold ColumnType.resolve
  cases ColumnType.ofName? name with
  | none => exact ⟨nofun, nofun⟩
  | some u => rw [Except.ok.injEq, Option.some.injEq]

/-- The canonical name of a type resolves to it. -/
theorem ColumnType.resolve_sqlName (t : ColumnType) : ColumnType.resolve t.sqlName = .ok t :=
  ColumnType.resolve_eq_ok_iff.2 t.ofName?_sqlName

/-! ## Entity schemas -/

/-- From the name of a field to its position among the fields. -/
abbrev FieldIndex : Type := Std.TreeMap String Nat

/-- The index of fields from a position on, added to the index of those before; the first name that is there already is a
flaw. -/
def FieldIndex.extend (entity : String) (index : FieldIndex) (position : Nat) : List Field → Except SchemaFlaw FieldIndex
  | [] => .ok index
  | f :: rest =>
    if index.contains f.name then .error (.duplicateField entity f.name)
    else FieldIndex.extend entity (index.insert f.name position) (position + 1) rest

/-- Whether a name is nothing but white space. -/
def Text.blankText (s : String) : Bool := (Text.trim s.toList).isEmpty

/-- A schema that has been checked: the entity's name, its fields in order, and the index made from them. -/
structure EntitySchema where
  name : String
  fields : List Field
  index : FieldIndex
  named : Text.blankText name = false
  indexed : FieldIndex.extend name ∅ 0 fields = .ok index

/-- The schema of an entity with the given fields, or the first flaw: a blank name before all else, then the first field that
repeats a name. -/
def EntitySchema.ofFields (name : String) (fields : List Field) : Except SchemaFlaw EntitySchema :=
  if hn : Text.blankText name = true then .error .blankName
  else
    match hi : FieldIndex.extend name ∅ 0 fields with
    | .error flaw => .error flaw
    | .ok index => .ok ⟨name, fields, index, Bool.eq_false_iff.2 hn, hi⟩

/-- A schema under construction: a name, and the fields declared so far. -/
structure EntitySchema.Builder where
  name : String
  fields : List Field

/-- A schema under construction with no field declared. -/
def EntitySchema.builder (name : String) : EntitySchema.Builder := ⟨name, []⟩

/-- One more field declared. -/
def EntitySchema.Builder.field (b : EntitySchema.Builder) (name : String) (type : ColumnType) : EntitySchema.Builder :=
  ⟨b.name, b.fields ++ [⟨name, type⟩]⟩

/-- The schema that was declared. -/
def EntitySchema.Builder.build (b : EntitySchema.Builder) : Except SchemaFlaw EntitySchema :=
  EntitySchema.ofFields b.name b.fields

/-- The field that a name stands for, found by the index. -/
def EntitySchema.field? (s : EntitySchema) (name : String) : Option Field :=
  s.index[name]?.bind fun position => s.fields[position]?

/-! ## Schemas of either kind -/

/-- The schema of an entity: checked and indexed, or a list of columns with gaps. -/
inductive Schema where
  | entity (s : EntitySchema)
  | listed (name : String) (columns : List (Option Field))

/-- The name of the entity. -/
def Schema.entityName : Schema → String
  | .entity s => s.name
  | .listed name _ => name

/-- The number of positions, gaps included. -/
def Schema.size : Schema → Nat
  | .entity s => s.fields.length
  | .listed _ columns => columns.length

/-- The field at a position, if there is one. -/
def Schema.column? : Schema → Nat → Option Field
  | .entity s, i => s.fields[i]?
  | .listed _ columns, i => columns[i]?.join

/-- The fields in order, gaps passed over. -/
def Schema.fields (s : Schema) : List Field := (List.range s.size).filterMap s.column?

/-- The field that a name stands for: by the index, or the first of that name. -/
def Schema.field? : Schema → String → Option Field
  | .entity s, name => s.field? name
  | .listed n columns, name => (Schema.listed n columns).fields.find? fun f => f.name == name

/-- Whether a name stands for a field. -/
def Schema.hasField (s : Schema) (name : String) : Bool := (s.field? name).isSome

/-- Whether every one of some names stands for a field: by the index alone, or each by its field. -/
def Schema.hasFields : Schema → List String → Bool
  | .entity s, names => names.all s.index.contains
  | .listed n columns, names => names.all (Schema.listed n columns).hasField

end WhereClause
