/-!
# Rejection: why a condition is not accepted for an entity

A condition is rejected for the fields it names that the entity does not declare: one that a comparison names, or all those
that a map of fields names.
-/

namespace WhereClause

/-- The reason for which a condition is rejected. -/
inductive Rejection where
  /-- A map names fields that the entity does not declare. -/
  | unknownFields (entity : String) (fields : List String)
  /-- An operand is a field that the entity does not declare. -/
  | unknownField (entity field : String)
  deriving DecidableEq

/-- The fields that are to blame. -/
def Rejection.fields : Rejection → List String
  | .unknownFields _ fields => fields
  | .unknownField _ field => [field]

/-- The entity that does not declare them. -/
def Rejection.entity : Rejection → String
  | .unknownFields entity _ => entity
  | .unknownField entity _ => entity

/-- A rejection in words. -/
def Rejection.message : Rejection → String
  | .unknownFields entity fields => "Unknown fields for entity '" ++ entity ++ "': " ++ String.intercalate ", " fields
  | .unknownField entity field => "Unknown field '" ++ field ++ "' for entity '" ++ entity ++ "'"

end WhereClause
