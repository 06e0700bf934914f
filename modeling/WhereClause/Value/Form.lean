import WhereClause.Json.Decode
import WhereClause.Value.Basic

/-!
# Form of values: values as JSON

A value is an object with one member, named for its kind, or the string `Null`. A float is a number, and null where it is
none, so that an infinity or a NaN does not read back; a JSON document stands in its place as it is; uuids, dates and
timestamps are strings.
-/

namespace WhereClause

/-- A signed number as JSON. -/
def Json.ofInt64 (n : Int64) : Json :=
  .number (.whole n.toInt ⟨n.le_toInt, Int.lt_trans n.toInt_lt (by decide)⟩)

/-- An unsigned number as JSON. -/
def Json.ofUInt64 (n : UInt64) : Json :=
  .number (.whole n.toNat ⟨Int.le_trans (by decide) (Int.natCast_nonneg _), Int.ofNat_lt.2 n.toNat_lt⟩)

/-- An octet as JSON. -/
def Json.ofOctet (b : UInt8) : Json := Json.ofUInt64 b.toUInt64

/-- A double as JSON: a number if it is finite. -/
def Json.ofDouble (x : Double) : Json := if h : x.isFinite = true then .number (.float x h) else .null

/-- A value as JSON. -/
def Value.toJson : Value → Json
  | .int n => .object [("Int", Json.ofInt64 n)]
  | .uint n => .object [("Uint", Json.ofUInt64 n)]
  | .float x => .object [("Float", Json.ofDouble x)]
  | .string s => .object [("String", .string s)]
  | .boolean b => .object [("Boolean", .bool b)]
  | .json d => .object [("Json", d.tree)]
  | .uuid u => .object [("Uuid", .string u.text)]
  | .bytes bs => .object [("Bytes", .array (bs.map Json.ofOctet))]
  | .date d => .object [("Date", .string d.text)]
  | .timestamp t => .object [("Timestamp", .string t.text)]
  | .null => .string "Null"

/-- The kinds of value, and how a value of each is made from what goes with its name. -/
def Value.choices : List (String × Draft.Choice Value) :=
  [("Int", .holding fun _ d => (d.toWhole (-0x8000000000000000) 0x7FFFFFFFFFFFFFFF).map fun n => .int (Int64.ofInt n)),
   ("Uint", .holding fun _ d => (d.toWhole 0 0xFFFFFFFFFFFFFFFF).map fun n => .uint (UInt64.ofNat n.toNat)),
   ("Float", .holding fun _ d => d.toDouble.map .float),
   ("String", .holding fun _ d => d.toText.map .string),
   ("Boolean", .holding fun _ d => d.toBool.map .boolean),
   ("Json", .holding fun source d => (Document.ofDraft source d).map .json),
   ("Uuid", .holding fun _ d => (d.toParsed Uuid.ofText?).map .uuid),
   ("Bytes", .holding fun source d =>
      (d.toList (fun _ d => (d.toWhole 0 255).map fun n => UInt8.ofNat n.toNat) source).map .bytes),
   ("Date", .holding fun _ d => (d.toParsed Date.ofText?).map .date),
   ("Timestamp", .holding fun _ d => (d.toParsed Timestamp.ofText?).map .timestamp),
   ("Null", .bare .null)]

/-- The value that a draft holds. -/
def Value.ofDraft (source : Draft.Source) (d : Draft) : Except Fault Value := d.toChoice Value.choices source

end WhereClause
