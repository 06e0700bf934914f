import WhereClause.Schema
import WhereClause.Text.Digits

/-!
# Fault: why a document is not read

A text may not be JSON; a value in it may be of the wrong kind, out of range or nested too deep; a name in it may be none of
those known; a member may be missing or repeated; and what it says of a schema may be flawed. Faults of the first two kinds
have no wording here: nothing but their kind is told.
-/

namespace WhereClause

/-- The reason for which a document is not read. -/
inductive Fault where
  /-- The text is not JSON, or goes on after its value. -/
  | malformed
  /-- A value is of the wrong kind, out of range or nested too deep, or an array has not the right length. -/
  | unfit
  /-- A variant is none of those known. -/
  | unknownVariant (name : String) (known : List String)
  /-- A member is none of those known, where no other is allowed. -/
  | unknownField (name : String) (known : List String)
  /-- A member is missing. -/
  | missingField (name : String)
  /-- A member is there twice. -/
  | duplicateField (name : String)
  /-- What the document says of a schema is flawed, be it the document itself or a part of it. -/
  | flawed (flaw : SchemaFlaw) (inPart : Bool)
  deriving DecidableEq

/-- A name between backticks. -/
def Fault.ticked (name : String) : String := "`" ++ name ++ "`"

/-- What was expected in the place of an unknown name. -/
def Fault.expected : List String → String
  | [a] => Fault.ticked a
  | [a, b] => Fault.ticked a ++ " or " ++ Fault.ticked b
  | names => "one of " ++ String.intercalate ", " (names.map Fault.ticked)

/-- The number that a text is, if it is digits alone, at least one, and the number fits 64 bits. -/
def Fault.wordNumber? (s : List Char) : Option Nat :=
  if s.isEmpty ∨ ¬ s.all Char.isDigit then none
  else
    let n := Nat.ofDigitChars 10 s 0
    if n < 0x10000000000000000 then some n else none

/-- The line that a text names, if it is the mention of a place, ` at line 3 column 14`. -/
def Fault.lineOfPlace? (s : List Char) : Option Nat :=
  let line := " at line ".toList
  let column := " column ".toList
  if line.isPrefixOf s then
    let (digits, rest) := Text.spanDigits (s.drop line.length)
    if column.isPrefixOf rest ∧ (Fault.wordNumber? (rest.drop column.length)).isSome then Fault.wordNumber? digits else none
  else none

/-- A message without the mention of a place that it ends in, and the line of that place. -/
def Fault.partPlace : List Char → List Char × Option Nat
  | [] => ([], none)
  | c :: rest =>
    match Fault.lineOfPlace? (c :: rest) with
    | some line => ([], some line)
    | none =>
      let (words, line) := Fault.partPlace rest
      (c :: words, line)

/-- A fault in words, if it has a wording. A flaw is told as the schema tells it, but a place mentioned at its end is taken
for the place of the fault in the document and left out. Line 0 is no place: the fault of a part then has the place where the
part ends, but that of the document itself has none, and is told only if the words that are left open as a flaw's do. -/
def Fault.message? : Fault → Option String
  | .malformed | .unfit => none
  | .unknownVariant name known => some ("unknown variant " ++ Fault.ticked name ++ ", expected " ++ Fault.expected known)
  | .unknownField name known => some ("unknown field " ++ Fault.ticked name ++ ", expected " ++ Fault.expected known)
  | .missingField name => some ("missing field " ++ Fault.ticked name)
  | .duplicateField name => some ("duplicate field " ++ Fault.ticked name)
  | .flawed flaw inPart =>
    let (words, line) := Fault.partPlace flaw.message.toList
    if line = some 0 ∧ inPart = false ∧ ¬ flaw.opening.toList.isPrefixOf words then none else some (String.ofList words)

end WhereClause
