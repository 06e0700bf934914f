import WhereClause.Calendar.Timestamp
import WhereClause.Json.Writer
import WhereClause.Uuid

/-!
# Value: the literals that are bound to placeholders

A value is of one of eleven kinds and equals only values of its kind. Floats are equal when their bits are; JSON documents are
compared as JSON, where two floats are equal when IEEE 754 says so. What a hash of a value is computed from is its key
(`Value.hashKey`): the kind and the content, for a float its bits and for a JSON document its text.
-/

namespace WhereClause

/-- A literal that is bound to a placeholder. -/
inductive Value where
  | int (n : Int64)
  | uint (n : UInt64)
  | float (x : Double)
  | string (s : String)
  | boolean (b : Bool)
  | json (d : Document)
  | uuid (u : Uuid)
  | bytes (bs : List UInt8)
  | date (d : Date)
  | timestamp (t : Timestamp)
  | null

/-- Whether two values are of one kind and equal. -/
def Value.same : Value → Value → Bool
  | .int a, .int b => a == b
  | .uint a, .uint b => a == b
  | .float a, .float b => a == b
  | .string a, .string b => a == b
  | .boolean a, .boolean b => a == b
  | .json a, .json b => a.same b
  | .uuid a, .uuid b => a == b
  | .bytes a, .bytes b => a == b
  | .date a, .date b => a == b
  | .timestamp a, .timestamp b => a == b
  | .null, .null => true
  | _, _ => false

instance : BEq Value := ⟨Value.same⟩

/-- What a hash of a value is computed from. -/
inductive Value.HashKey where
  | int (n : Int64)
  | uint (n : UInt64)
  | floatBits (bits : UInt64)
  | string (s : String)
  | boolean (b : Bool)
  | jsonText (text : String)
  | uuid (u : Uuid)
  | bytes (bs : List UInt8)
  | date (d : Date)
  | timestamp (t : Timestamp)
  | null
  deriving DecidableEq

/-- The kind and the content of a value, as a hash takes them in. -/
def Value.hashKey : Value → Value.HashKey
  | .int n => .int n
  | .uint n => .uint n
  | .float x => .floatBits x.bits
  | .string s => .string s
  | .boolean b => .boolean b
  | .json d => .jsonText d.text
  | .uuid u => .uuid u
  | .bytes bs => .bytes bs
  | .date d => .date d
  | .timestamp t => .timestamp t
  | .null => .null

/-- The value of an optional one: what is absent is null. -/
def Value.ofOption (v : Option Value) : Value := v.getD .null

end WhereClause
