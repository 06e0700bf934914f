import WhereClause.Condition.Render

/-!
# Validate: whether an entity declares every field that a condition names

A condition is gone through from left to right, and the first thing wrong with it is the reason for which it is rejected. A
map is checked as a whole, and all its unknown fields are given. Text of the caller's is not looked into.
-/

namespace WhereClause

/-- Whether the schema declares every field that a map names. -/
def FieldMap.check (s : Schema) (m : FieldMap) : Except Rejection Unit :=
  if s.hasFields m.fields.names then .ok () else .error (.unknownFields s.entityName (m.unknown s))

mutual

/-- Whether the schema declares every field that a condition names. -/
def Condition.check (s : Schema) : Condition → Except Rejection Unit
  | .raw _ => .ok ()
  | .fieldMap m => m.check s
  | .list items _ => Condition.checkItems s items
  | .expr ⟨left, _, right⟩ => do
    left.check s
    right.check s

/-- Whether the schema declares every field that conditions name, one after the other. -/
def Condition.checkItems (s : Schema) : List Condition → Except Rejection Unit
  | [] => .ok ()
  | c :: cs => do
    c.check s
    Condition.checkItems s cs

/-- Whether the schema declares every field that an operand names. -/
def Operand.check (s : Schema) : Operand → Except Rejection Unit
  | .condition c => c.check s
  | .field name => if s.hasField name then .ok () else .error (.unknownField s.entityName name)
  | .value _ => .ok ()

end

/-- Whether a condition is accepted for the entity of a schema; a rejection is reported. -/
def Condition.validateLogged (c : Condition) (s : Schema) : Logged (Except Rejection Unit) :=
  match c.check s with
  | .ok () => ⟨[], .ok ()⟩
  | .error reason => ⟨[.rejected s.entityName reason], .error reason⟩

/-- Whether a condition is accepted for the entity of a schema, or why not. -/
def Condition.validate (c : Condition) (s : Schema) : Except Rejection Unit := (c.validateLogged s).result

/-- What is reported does not change what is found. -/
theorem Condition.validate_eq_check (c : Condition) (s : Schema) : c.validate s = c.check s := by
  unfold Condition.validate Condition.validateLogged
  cases c.check s <;> rfl

end WhereClause
