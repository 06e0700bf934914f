import WhereClause.Json.Draft
import WhereClause.Json.Fault

/-!
# Decode: values made from a draft, in the order of the text

A draft is walked in the order of the text, and the first fault met is the answer. A value is read either straight from the text
or from a part that was kept: a part that could only be understood when more of the text was known, and that was therefore read
whole before anything was made of it. The text may be nested 127 deep; a part that was kept has been measured already. What is
passed over in a text need only be well formed.

The common shapes are here. A record is an object with its members in any order, or an array of them in theirs. A choice is an
object with one member, named for what was chosen, or a string where nothing goes with the name.
-/

namespace WhereClause

/-- Where a value is read from. -/
inductive Draft.Source where
  /-- The text, with room for so many levels more. -/
  | text (room : Nat)
  /-- A part that was read whole before. -/
  | kept

/-- The source of a text that has just been opened: arrays and objects may be nested 127 deep. -/
def Draft.Source.fresh : Draft.Source := .text 127

/-- Whether what is read is a part of the text rather than all of it. -/
def Draft.Source.isPart : Draft.Source → Bool
  | .text room => room < 127
  | .kept => true

/-- One level down. -/
def Draft.Source.down : Draft.Source → Except Fault Draft.Source
  | .text 0 => .error .unfit
  | .text (room + 1) => .ok (.text room)
  | .kept => .ok .kept

/-- The fault of a draft that is not of the kind wanted. -/
def Draft.misfit : Draft → Fault
  | .broken => .malformed
  | _ => .unfit

/-! ## Parts passed over and parts kept -/

mutual

/-- Whether a draft is unbroken. -/
def Draft.isWhole : Draft → Bool
  | .broken => false
  | .array items => Draft.areWhole items
  | .object members => Draft.areWholeMembers members
  | _ => true

/-- Whether the items of an array are unbroken. -/
def Draft.areWhole : List Draft → Bool
  | [] => true
  | d :: ds => d.isWhole && Draft.areWhole ds

/-- Whether the members of an object are unbroken. -/
def Draft.areWholeMembers : List (Draft × Draft) → Bool
  | [] => true
  | (k, d) :: ms => k.isWhole && d.isWhole && Draft.areWholeMembers ms

end

mutual

/-- The JSON value that a draft holds, its objects with their members as they stand. -/
def Draft.toJson : Draft → Draft.Source → Except Fault Json
  | .null, _ => .ok .null
  | .bool b, _ => .ok (.bool b)
  | .number n, _ =>
    match n.toNumber? with
    | some n => .ok (.number n)
    | none => .error .unfit
  | .string s, _ => .ok (.string s)
  | .unpaired, _ => .error .unfit
  | .array items, source => do
    let source ← source.down
    return .array (← Draft.toJsonItems items source)
  | .object members, source => do
    let source ← source.down
    return .object (← Draft.toJsonMembers members source)
  | .broken, _ => .error .malformed

/-- The JSON values that the items of an array hold. -/
def Draft.toJsonItems : List Draft → Draft.Source → Except Fault (List Json)
  | [], _ => .ok []
  | d :: ds, source => do
    let x ← d.toJson source
    let xs ← Draft.toJsonItems ds source
    return x :: xs

/-- The entries that the members of an object hold. -/
def Draft.toJsonMembers : List (Draft × Draft) → Draft.Source → Except Fault (List (String × Json))
  | [], _ => .ok []
  | (.string key, d) :: ms, source => do
    let x ← d.toJson source
    let xs ← Draft.toJsonMembers ms source
    return (key, x) :: xs
  | (k, _) :: _, _ => .error k.misfit

end

mutual

/-- How deep a draft is nested. -/
def Draft.height : Draft → Nat
  | .array items => Draft.heightOf items + 1
  | .object members => Draft.heightOfMembers members + 1
  | _ => 0

/-- How deep the items of an array are nested. -/
def Draft.heightOf : List Draft → Nat
  | [] => 0
  | d :: ds => max d.height (Draft.heightOf ds)

/-- How deep the members of an object are nested. -/
def Draft.heightOfMembers : List (Draft × Draft) → Nat
  | [] => 0
  | (_, d) :: ms => max d.height (Draft.heightOfMembers ms)

end

/-- A part passed over: from the text it need only be unbroken. -/
def Draft.passOver (d : Draft) : Draft.Source → Except Fault Unit
  | .text _ => if d.isWhole then .ok () else .error .malformed
  | .kept => .ok ()

/-- A part to be kept: from the text it is read whole. -/
def Draft.keep (d : Draft) : Draft.Source → Except Fault Unit
  | .text room => (d.toJson (.text room)).map fun _ => ()
  | .kept => .ok ()

/-! ## Simple values -/

/-- A text. -/
def Draft.toText : Draft → Except Fault String
  | .string s => .ok s
  | d => .error d.misfit

/-- A truth value. -/
def Draft.toBool : Draft → Except Fault Bool
  | .bool b => .ok b
  | d => .error d.misfit

/-- A whole number between two bounds, both included. -/
def Draft.toWhole (least most : Int) : Draft → Except Fault Int
  | .number n =>
    match n.toNumber? with
    | some (.whole n _) => if least ≤ n ∧ n ≤ most then .ok n else .error .unfit
    | _ => .error .unfit
  | d => .error d.misfit

/-- A double: a float, or the double nearest to a whole number. -/
def Draft.toDouble : Draft → Except Fault Double
  | .number n =>
    match n.toNumber? with
    | some (.whole n _) => .ok (if n < 0 then (Double.ofNat n.natAbs).negate else Double.ofNat n.natAbs)
    | some (.float x _) => .ok x
    | none => .error .unfit
  | d => .error d.misfit

/-- What a text denotes, by a function that may not know it. -/
def Draft.toParsed {α : Type} (parse : String → Option α) (d : Draft) : Except Fault α := do
  match parse (← d.toText) with
  | some x => return x
  | none => throw .unfit

/-- The items of an array, each made by a function. -/
def Draft.toList {α : Type} (item : Draft.Source → Draft → Except Fault α) (source : Draft.Source) :
    Draft → Except Fault (List α)
  | .array items => do
    let source ← source.down
    items.mapM (item source)
  | d => .error d.misfit

/-- The entries of an object, the value of each made by a function. -/
def Draft.toEntries {α : Type} (value : Draft.Source → Draft → Except Fault α) (source : Draft.Source) :
    Draft → Except Fault (List (String × α))
  | .object members => do
    let source ← source.down
    members.mapM fun (key, d) => do
      let name ← key.toText
      return (name, ← value source d)
  | d => .error d.misfit

/-- What a function makes of a value, or nothing where the value is null. -/
def Draft.toOption {α : Type} (value : Draft.Source → Draft → Except Fault α) (source : Draft.Source) :
    Draft → Except Fault (Option α)
  | .null => .ok none
  | d => (value source d).map some

/-! ## Records -/

/-- A member of a record under construction: its name, whether it has been given, and how it is taken in. -/
structure Draft.Slot (σ : Type) where
  name : String
  filled : σ → Bool
  fill : σ → Draft → Except Fault σ

/-- The members of an object taken into a record, in the order of the text. -/
def Draft.fillMembers {σ : Type} (slots : List (Draft.Slot σ)) (other : String → Draft → Except Fault Unit) :
    σ → List (Draft × Draft) → Except Fault σ
  | state, [] => .ok state
  | state, (.string key, d) :: rest =>
    match slots.find? fun slot => slot.name == key with
    | some slot =>
      if slot.filled state then .error (.duplicateField key)
      else do
        let state ← slot.fill state d
        Draft.fillMembers slots other state rest
    | none => do
      other key d
      Draft.fillMembers slots other state rest
  | _, (k, _) :: _ => .error k.misfit

/-- The items of an array taken into a record, in the order of its members. There may be fewer of them, but not more. -/
def Draft.fillRow {σ : Type} : List (Draft.Slot σ) → σ → List Draft → Except Fault σ
  | _, state, [] => .ok state
  | [], _, d :: _ => .error d.misfit
  | slot :: slots, state, d :: ds => do
    let state ← slot.fill state d
    Draft.fillRow slots state ds

/-- A record: its members taken in from an object or from an array, and made into one value at the end. `finish` is given the
fault of a member that is missing. -/
def Draft.toRecord {σ α : Type} (slots : Draft.Source → List (Draft.Slot σ))
    (other : Draft.Source → String → Draft → Except Fault Unit) (start : σ) (finish : (String → Fault) → σ → Except Fault α)
    (source : Draft.Source) : Draft → Except Fault α
  | .object members => do
    let source ← source.down
    let state ← Draft.fillMembers (slots source) (other source) start members
    finish .missingField state
  | .array items => do
    let source ← source.down
    let state ← Draft.fillRow (slots source) start items
    finish (fun _ => .unfit) state
  | d => .error d.misfit

/-- Members that a record does not have are passed over. -/
def Draft.ignoreOther (source : Draft.Source) (_ : String) (d : Draft) : Except Fault Unit := d.passOver source

/-- A member that has to be there. -/
def Draft.need {α : Type} (missing : String → Fault) (name : String) : Option α → Except Fault α
  | some x => .ok x
  | none => .error (missing name)

/-! ## Choices -/

/-- What may be chosen: a value that goes without more, or one that is made of what goes with the name. -/
inductive Draft.Choice (α : Type) where
  | bare (x : α)
  | holding (make : Draft.Source → Draft → Except Fault α)

/-- The choice of a name, of those that are known. -/
def Draft.choice {α : Type} (choices : List (String × Draft.Choice α)) (name : String) : Except Fault (Draft.Choice α) :=
  match choices.lookup name with
  | some c => .ok c
  | none => .error (.unknownVariant name (choices.map (·.1)))

/-- What goes with a name that goes without more: null, and in a part that was kept also an empty object. -/
def Draft.toNothing : Draft.Source → Draft → Except Fault Unit
  | _, .null => .ok ()
  | .kept, .object [] => .ok ()
  | _, d => .error d.misfit

/-- What is made of a choice and what goes with its name. -/
def Draft.Choice.take {α : Type} (source : Draft.Source) (d : Draft) : Draft.Choice α → Except Fault α
  | .bare x => (Draft.toNothing source d).map fun _ => x
  | .holding make => make source d

/-- A choice. From a text what goes with the first name is read before it is seen that there is a second; in a part that was
kept the number of names is seen first. -/
def Draft.toChoice {α : Type} (choices : List (String × Draft.Choice α)) (source : Draft.Source) : Draft → Except Fault α
  | .string name => do
    match ← Draft.choice choices name with
    | .bare x => return x
    | .holding _ => throw .unfit
  | .object ((key, d) :: more) => do
    let source ← source.down
    match source, more with
    | .kept, _ :: _ => throw .unfit
    | _, _ =>
      let chosen ← Draft.choice choices (← key.toText)
      let x ← chosen.take source d
      if more.isEmpty then return x else throw .unfit
  | d => .error d.misfit

/-! ## Whole texts -/

/-- What a text holds, made by a function; nothing may follow it. -/
def Draft.decode {α : Type} (make : Draft.Source → Draft → Except Fault α) (s : String) : Except Fault α := do
  let reading := Draft.read s
  let x ← make .fresh reading.value
  if reading.ends then return x else throw .malformed

/-- The document that a draft holds. -/
def Document.ofDraft (source : Draft.Source) (d : Draft) : Except Fault Document := (d.toJson source).map Document.ofJson

/-- The document that a text is. -/
def Document.ofText (s : String) : Except Fault Document := Draft.decode Document.ofDraft s

end WhereClause
