import WhereClause.Text.Printable

/-!
# Quoted: a list of names as a log message shows it

Each name stands between double quotes, the names are separated by a comma and a space, and brackets enclose the list. Inside
the quotes the usual short escapes are used, and what is not printable is written by its number in braces, in hexadecimal
without leading zeros.
-/

namespace WhereClause

/-- A character inside the quotes. -/
def Text.quotedChar (c : Char) : List Char :=
  if c = '\x00' then ['\\', '0']
  else if c = '\t' then ['\\', 't']
  else if c = '\r' then ['\\', 'r']
  else if c = '\n' then ['\\', 'n']
  else if c = '"' then ['\\', '"']
  else if c = '\\' then ['\\', '\\']
  else if Text.isPrintable c then [c]
  else ['\\', 'u', '\x7b'] ++ Nat.toDigits 16 c.toNat ++ ['\x7d']

/-- A name between quotes. -/
def Text.quoted (s : String) : String := String.ofList ('"' :: s.toList.flatMap Text.quotedChar ++ ['"'])

/-- A list of names, each between quotes. -/
def Text.quotedList (names : List String) : String := "[" ++ String.intercalate ", " (names.map Text.quoted) ++ "]"

end WhereClause
