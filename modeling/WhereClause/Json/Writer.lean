import WhereClause.Double.Shortest
import WhereClause.Json.Basic

/-!
# Writer: JSON values as compact text

No white space is written between the parts of a value, and entries are written in the order in which they stand. In a string
the quote, the backslash and the control characters below U+0020 are escaped and nothing else. A float has the fewest digits
that name it, and always a point or an exponent, so that it reads back as a float.
-/

namespace WhereClause

/-- A character inside a JSON string. -/
def Json.writeChar (c : Char) : List Char :=
  if c = '"' then ['\\', '"']
  else if c = '\\' then ['\\', '\\']
  else if c = '\x08' then ['\\', 'b']
  else if c = '\t' then ['\\', 't']
  else if c = '\n' then ['\\', 'n']
  else if c = '\x0c' then ['\\', 'f']
  else if c = '\r' then ['\\', 'r']
  else if c.toNat < 0x20 then ['\\', 'u', '0', '0', Nat.digitChar (c.toNat / 16), Nat.digitChar (c.toNat % 16)]
  else [c]

/-- The inside of a JSON string. -/
def Json.writeChars (s : List Char) : List Char := s.flatMap Json.writeChar

/-- A JSON string, with its quotes. -/
def Json.writeString (s : String) : List Char := '"' :: Json.writeChars s.toList ++ ['"']

/-- A whole number. -/
def Json.writeInt (n : Int) : List Char :=
  if n < 0 then '-' :: Nat.toDigits 10 n.natAbs else Nat.toDigits 10 n.natAbs

/-- A decimal that is not zero. Where the power of ten of its first digit is between -5 and 15 it is positional, with at least
one digit on either side of the point; else the point stands after the first digit, if there are more, and the power of ten
follows with its sign. -/
def Decimal.write (d : Decimal) : List Char :=
  let digits := Nat.toDigits 10 d.digits
  let power := d.exponent + (digits.length : Int) - 1
  if 0 ≤ power ∧ power ≤ 15 then
    let whole := power.toNat + 1
    if digits.length ≤ whole then digits ++ List.replicate (whole - digits.length) '0' ++ ['.', '0']
    else digits.take whole ++ '.' :: digits.drop whole
  else if -5 ≤ power ∧ power < 0 then
    ['0', '.'] ++ List.replicate (-power - 1).toNat '0' ++ digits
  else
    let sign := if power < 0 then '-' else '+'
    let rest := digits.drop 1
    digits.take 1 ++ (if rest.isEmpty then [] else '.' :: rest) ++ ['e', sign] ++ Nat.toDigits 10 power.natAbs

/-- A finite double: its sign, and the shortest decimal that names its magnitude. -/
def Double.write (x : Double) : List Char :=
  let magnitude := if x.isZero then ['0', '.', '0'] else x.shortest.write
  if x.isNegative then '-' :: magnitude else magnitude

/-- A JSON number. -/
def Json.Number.write : Json.Number → List Char
  | .whole n _ => Json.writeInt n
  | .float x _ => x.write

mutual

/-- A JSON value as compact text. -/
def Json.write : Json → List Char
  | .null => ['n', 'u', 'l', 'l']
  | .bool true => ['t', 'r', 'u', 'e']
  | .bool false => ['f', 'a', 'l', 's', 'e']
  | .number n => n.write
  | .string s => Json.writeString s
  | .array [] => ['[', ']']
  | .array (x :: xs) => '[' :: x.write ++ Json.writeItems xs
  | .object [] => ['{', '}']
  | .object ((k, x) :: es) => '{' :: Json.writeString k ++ ':' :: x.write ++ Json.writeEntries es

/-- The items of an array after its first, each after a comma, and the closing bracket. -/
def Json.writeItems : List Json → List Char
  | [] => [']']
  | x :: xs => ',' :: x.write ++ Json.writeItems xs

/-- The entries of an object after its first, each after a comma, and the closing brace. -/
def Json.writeEntries : List (String × Json) → List Char
  | [] => ['}']
  | (k, x) :: es => ',' :: Json.writeString k ++ ':' :: x.write ++ Json.writeEntries es

end

/-- A JSON value as a compact text. -/
def Json.text (j : Json) : String := String.ofList j.write

/-- A document as a compact text, its keys in order. -/
def Document.text (d : Document) : String := d.tree.text

end WhereClause
