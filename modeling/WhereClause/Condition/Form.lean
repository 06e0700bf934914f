import WhereClause.Condition.Basic
import WhereClause.Value.Form

/-!
# Form of conditions: conditions as JSON

A condition is an object whose member `kind` says which of the four kinds it is, and whose other members are those of the
kind. Since `kind` may stand anywhere among them, what stands before it in a text has to be kept until it is found: so all the
members of a condition but `kind` are kept, and its body is made of them when the object has been read. In a part that was
kept, the kind of a nested condition may also be given by its number in the order of the kinds.
-/

namespace WhereClause

/-! ## Writing -/

/-- The members of a map of fields. -/
def FieldMap.members (m : FieldMap) : List (String × Json) :=
  [("fields", .object (m.fields.entries.map fun e => (e.1, e.2.toJson))), ("operator", .string m.operator.name)]

mutual

/-- The members of a condition, without its kind. -/
def Condition.members : Condition → List (String × Json)
  | .expr ⟨left, op, right⟩ => [("left", left.toJson), ("operator", .string op.name), ("right", right.toJson)]
  | .list items op => [("items", .array (Condition.toJsonItems items)), ("operator", .string op.name)]
  | .fieldMap m => m.members
  | .raw text => [("text", .string text)]

/-- The items of a list as JSON. -/
def Condition.toJsonItems : List Condition → List Json
  | [] => []
  | c :: cs => .object (("kind", .string c.kind.name) :: c.members) :: Condition.toJsonItems cs

/-- An operand as JSON. -/
def Operand.toJson : Operand → Json
  | .condition c => .object [("condition", .object (("kind", .string c.kind.name) :: c.members))]
  | .field name => .object [("field", .string name)]
  | .value v => .object [("value", v.toJson)]

end

/-- A condition as JSON, its kind first. -/
def Condition.toJson (c : Condition) : Json := .object (("kind", .string c.kind.name) :: c.members)

/-- What a condition holds as JSON, without its kind. -/
def Condition.bodyToJson (c : Condition) : Json := .object c.members

/-! ## Reading: the parts -/

/-- The operator that a draft names. -/
def Operator.ofDraft (source : Draft.Source) (d : Draft) : Except Fault Operator :=
  d.toChoice (Operator.all.map fun op => (op.name, .bare op)) source

/-- The operand that a draft holds, given how conditions are made. -/
def Operand.ofDraftWith (condition : Draft.Source → Draft → Except Fault Condition) (source : Draft.Source) (d : Draft) :
    Except Fault Operand :=
  d.toChoice
    [("condition", .holding fun source d => (condition source d).map .condition),
     ("field", .holding fun _ d => d.toText.map .field),
     ("value", .holding fun source d => (Value.ofDraft source d).map .value)] source

/-- An expression under construction. -/
structure Expr.Parts where
  left : Option Operand
  operator : Option Operator
  right : Option Operand

/-- The members of an expression. -/
def Expr.slots (condition : Draft.Source → Draft → Except Fault Condition) (source : Draft.Source) :
    List (Draft.Slot Expr.Parts) :=
  [⟨"left", fun p => p.left.isSome, fun p d =>
      (Operand.ofDraftWith condition source d).map fun x => { p with left := some x }⟩,
   ⟨"operator", fun p => p.operator.isSome, fun p d => (Operator.ofDraft source d).map fun x => { p with operator := some x }⟩,
   ⟨"right", fun p => p.right.isSome, fun p d =>
      (Operand.ofDraftWith condition source d).map fun x => { p with right := some x }⟩]

/-- An expression of its parts. -/
def Expr.ofParts (missing : String → Fault) (p : Expr.Parts) : Except Fault Expr := do
  return ⟨← Draft.need missing "left" p.left, ← Draft.need missing "operator" p.operator, ← Draft.need missing "right" p.right⟩

/-- The expression that a draft holds, given how conditions are made. -/
def Expr.ofDraftWith (condition : Draft.Source → Draft → Except Fault Condition) (source : Draft.Source) (d : Draft) :
    Except Fault Expr :=
  d.toRecord (Expr.slots condition) Draft.ignoreOther ⟨none, none, none⟩ Expr.ofParts source

/-- Something joined by an operator, under construction. -/
structure Condition.Joined (α : Type) where
  parts : Option α
  operator : Option Operator

/-- The members of something joined by an operator. -/
def Condition.joinedSlots {α : Type} (name : String) (parts : Draft.Source → Draft → Except Fault α) (source : Draft.Source) :
    List (Draft.Slot (Condition.Joined α)) :=
  [⟨name, fun p => p.parts.isSome, fun p d => (parts source d).map fun x => { p with parts := some x }⟩,
   ⟨"operator", fun p => p.operator.isSome, fun p d => (Operator.ofDraft source d).map fun x => { p with operator := some x }⟩]

/-- What is joined, and the operator. -/
def Condition.ofJoined {α : Type} (name : String) (missing : String → Fault) (p : Condition.Joined α) :
    Except Fault (α × Operator) := do
  return (← Draft.need missing name p.parts, ← Draft.need missing "operator" p.operator)

/-- The list that a draft holds, given how conditions are made. -/
def Condition.listOfDraftWith (condition : Draft.Source → Draft → Except Fault Condition) (source : Draft.Source) (d : Draft) :
    Except Fault Condition :=
  (d.toRecord (Condition.joinedSlots "items" fun source d => d.toList condition source) Draft.ignoreOther ⟨none, none⟩
    (Condition.ofJoined "items") source).map fun (items, op) => .list items op

/-- The map of fields that a draft holds; of two values for one field the later counts. -/
def FieldMap.ofDraft (source : Draft.Source) (d : Draft) : Except Fault FieldMap :=
  (d.toRecord (Condition.joinedSlots "fields" fun source d => d.toEntries Value.ofDraft source) Draft.ignoreOther ⟨none, none⟩
    (Condition.ofJoined "fields") source).map fun (fields, op) => ⟨Bindings.ofList fields, op⟩

/-- The members of text of the caller's. -/
def Condition.rawSlots (_ : Draft.Source) : List (Draft.Slot (Option String)) :=
  [⟨"text", fun p => p.isSome, fun _ d => d.toText.map some⟩]

/-- The text of the caller's that a draft holds. -/
def Condition.rawOfDraft (source : Draft.Source) (d : Draft) : Except Fault String :=
  d.toRecord Condition.rawSlots Draft.ignoreOther none (fun missing p => Draft.need missing "text" p) source

/-! ## Reading: the whole -/

/-- The kind of condition that a draft names, or gives by its number in a part that was kept. -/
def Condition.Kind.ofDraft : Draft.Source → Draft → Except Fault Condition.Kind
  | _, .string name =>
    match Condition.Kind.all.find? fun k => k.name == name with
    | some k => .ok k
    | none => .error (.unknownVariant name (Condition.Kind.all.map Condition.Kind.name))
  | .kept, .number n =>
    match n.toNumber? with
    | some (.whole i _) =>
      if i < 0 then .error .unfit
      else
        match Condition.Kind.all[i.toNat]? with
        | some k => .ok k
        | none => .error .unfit
    | _ => .error .unfit
  | _, d => .error d.misfit

/-- The kind among the members of a condition, and the other members, which are kept. -/
def Condition.takeKind (source : Draft.Source) :
    Option Condition.Kind → List (Draft × Draft) → Except Fault (Condition.Kind × List (Draft × Draft))
  | some kind, [] => .ok (kind, [])
  | none, [] => .error (.missingField "kind")
  | kind, (.string key, d) :: rest =>
    if key = "kind" then
      if kind.isSome then .error (.duplicateField "kind")
      else do
        let found ← Condition.Kind.ofDraft source d
        Condition.takeKind source (some found) rest
    else do
      d.keep source
      let (found, others) ← Condition.takeKind source kind rest
      return (found, (.string key, d) :: others)
  | _, (k, _) :: _ => .error k.misfit

/-- The kind of a condition and what is kept of it. An array gives the kind first. -/
def Condition.split (source : Draft.Source) : Draft → Except Fault (Condition.Kind × Draft)
  | .object members => do
    let source ← source.down
    let (kind, others) ← Condition.takeKind source none members
    return (kind, .object others)
  | .array items => do
    let source ← source.down
    match items with
    | [] => throw (.missingField "kind")
    | d :: rest =>
      let kind ← Condition.Kind.ofDraft source d
      rest.forM fun d => d.keep source
      return (kind, .array rest)
  | d => .error d.misfit

/-- The condition of a kind that was kept, given how conditions are made. -/
def Condition.ofBody (condition : Draft.Source → Draft → Except Fault Condition) (kind : Condition.Kind) (body : Draft) :
    Except Fault Condition :=
  match kind with
  | .expr => (Expr.ofDraftWith condition .kept body).map .expr
  | .list => Condition.listOfDraftWith condition .kept body
  | .fieldMap => (FieldMap.ofDraft .kept body).map .fieldMap
  | .raw => (Condition.rawOfDraft .kept body).map .raw

/-- The condition that a draft holds, conditions nested no deeper than `fuel`. -/
def Condition.ofDraftWithin : Nat → Draft.Source → Draft → Except Fault Condition
  | 0, _, d => .error d.misfit
  | fuel + 1, source, d => do
    let (kind, body) ← Condition.split source d
    Condition.ofBody (Condition.ofDraftWithin fuel) kind body

/-- The condition that a draft holds. Conditions are nested no deeper than the draft. -/
def Condition.ofDraft (source : Draft.Source) (d : Draft) : Except Fault Condition :=
  Condition.ofDraftWithin (d.height + 1) source d

/-- The operand that a draft holds. -/
def Operand.ofDraft (source : Draft.Source) (d : Draft) : Except Fault Operand :=
  Operand.ofDraftWith Condition.ofDraft source d

/-- The expression that a draft holds. -/
def Expr.ofDraft (source : Draft.Source) (d : Draft) : Except Fault Expr := Expr.ofDraftWith Condition.ofDraft source d

/-- The list that a draft holds. -/
def Condition.listOfDraft (source : Draft.Source) (d : Draft) : Except Fault Condition :=
  Condition.listOfDraftWith Condition.ofDraft source d

end WhereClause
