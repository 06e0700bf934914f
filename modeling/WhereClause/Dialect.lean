/-!
# Dialect: how a database spells identifiers and placeholders

Two things differ between databases: the character that identifiers stand between, which is written twice inside them, and the
placeholder of a parameter, which is a question mark or, with a dollar sign, the parameter's number.
-/

namespace WhereClause

/-- A database's way of writing. -/
inductive Dialect where
  /-- Identifiers bare, placeholders as question marks. -/
  | standard
  /-- Identifiers between double quotes, placeholders numbered. -/
  | postgres
  /-- Identifiers between backticks, placeholders as question marks. -/
  | mysql
  deriving DecidableEq

/-- The name of a dialect, as shown. -/
def Dialect.displayName : Dialect → String
  | .standard => "Standard"
  | .postgres => "PostgreSQL"
  | .mysql => "MySQL"

/-- The character that identifiers stand between, if any. -/
def Dialect.quote? : Dialect → Option Char
  | .standard => none
  | .postgres => some '"'
  | .mysql => some '\x60'

/-- An identifier with every quote in it written twice. -/
def Dialect.doubled (quote : Char) (s : List Char) : List Char := s.flatMap fun c => if c = quote then [c, c] else [c]

/-- An identifier as it stands in a clause. -/
def Dialect.identifier (d : Dialect) (name : String) : String :=
  match d.quote? with
  | none => name
  | some quote => String.ofList (quote :: Dialect.doubled quote name.toList ++ [quote])

/-- The placeholder of the parameter at a position, counted from zero. -/
def Dialect.placeholder : Dialect → Nat → String
  | .postgres, i => "$" ++ toString (i + 1)
  | _, _ => "?"

end WhereClause
