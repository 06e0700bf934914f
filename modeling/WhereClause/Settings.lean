import WhereClause.Dialect
import WhereClause.Json.Decode

/-!
# Settings: how conditions are compiled

The settings are the dialect and whether a condition is validated before it is rendered. In a document what is left out has its
default, and nothing else may be there. A dialect is read under its name; MySQL has two.
-/

namespace WhereClause

/-- How conditions are compiled. -/
structure Settings where
  dialect : Dialect
  validates : Bool
  deriving DecidableEq

/-- The standard dialect, and validation. -/
def Settings.default : Settings := ⟨.standard, true⟩

/-- The name of a dialect in a document. -/
def Dialect.name : Dialect → String
  | .standard => "standard"
  | .postgres => "postgres"
  | .mysql => "mysql"

/-- A dialect as JSON. -/
def Dialect.toJson (d : Dialect) : Json := .string d.name

/-- The names that a dialect is read under. -/
def Dialect.choices : List (String × Draft.Choice Dialect) :=
  [("standard", .bare .standard), ("postgres", .bare .postgres), ("my_sql", .bare .mysql), ("mysql", .bare .mysql)]

/-- The dialect that a draft names. -/
def Dialect.ofDraft (source : Draft.Source) (d : Draft) : Except Fault Dialect := d.toChoice Dialect.choices source

/-- Settings as JSON. -/
def Settings.toJson (s : Settings) : Json :=
  .object [("dialect", s.dialect.toJson), ("validate_before_render", .bool s.validates)]

/-- Settings under construction. -/
structure Settings.Parts where
  dialect : Option Dialect
  validates : Option Bool

/-- The members of settings. -/
def Settings.slots (source : Draft.Source) : List (Draft.Slot Settings.Parts) :=
  [⟨"dialect", fun p => p.dialect.isSome, fun p d => (Dialect.ofDraft source d).map fun x => { p with dialect := some x }⟩,
   ⟨"validate_before_render", fun p => p.validates.isSome, fun p d =>
      d.toBool.map fun x => { p with validates := some x }⟩]

/-- No other member is allowed. -/
def Settings.refuseOther (_ : Draft.Source) (name : String) (_ : Draft) : Except Fault Unit :=
  .error (.unknownField name ["dialect", "validate_before_render"])

/-- Settings of their parts, what is missing by default. -/
def Settings.ofParts (_ : String → Fault) (p : Settings.Parts) : Except Fault Settings :=
  .ok ⟨p.dialect.getD Settings.default.dialect, p.validates.getD Settings.default.validates⟩

/-- The settings that a draft holds. -/
def Settings.ofDraft (source : Draft.Source) (d : Draft) : Except Fault Settings :=
  d.toRecord Settings.slots Settings.refuseOther ⟨none, none⟩ Settings.ofParts source

/-- The settings that a text holds. -/
def Settings.load (text : String) : Except Fault Settings := Draft.decode Settings.ofDraft text

end WhereClause
