/-!
# Digits: numbers of a fixed count of digits, and runs of digits at the start of a text

Dates, times, uuids and JSON numbers are made of runs of digits. A run is read as long as it goes, up to a most; a number of
fixed width is written with zeros in front.
-/

namespace WhereClause

/-- The value of a decimal digit. -/
def Text.digit? (c : Char) : Option Nat := if c.isDigit then some (c.toNat - '0'.toNat) else none

/-- The value of a hexadecimal digit, in either case. -/
def Text.hexDigit? (c : Char) : Option Nat :=
  if c.isDigit then some (c.toNat - '0'.toNat)
  else if 'a' ≤ c ∧ c ≤ 'f' then some (c.toNat - 'a'.toNat + 10)
  else if 'A' ≤ c ∧ c ≤ 'F' then some (c.toNat - 'A'.toNat + 10)
  else none

/-- The digits a text starts with, and what follows them. -/
def Text.spanDigits (s : List Char) : List Char × List Char := (s.takeWhile Char.isDigit, s.dropWhile Char.isDigit)

/-- The digits a text starts with, no more than `most` of them, and what follows those. -/
def Text.spanDigitsUpTo (most : Nat) (s : List Char) : List Char × List Char :=
  (s.take most |>.takeWhile Char.isDigit, s.drop (s.take most |>.takeWhile Char.isDigit).length)

/-- The number that a run of digits of a base denotes, from the digits' values. -/
def Text.valueOf (base : Nat) (digits : List Nat) : Nat := digits.foldl (fun n d => base * n + d) 0

/-- A number in decimal with at least `width` digits, zeros in front. -/
def Text.padded (width n : Nat) : List Char :=
  List.replicate (width - (Nat.toDigits 10 n).length) '0' ++ Nat.toDigits 10 n

/-- Exactly `width` digits of a number in base 16, in lower case. -/
def Text.hexPadded : Nat → Nat → List Char
  | 0, _ => []
  | width + 1, n => Text.hexPadded width (n / 16) ++ [Nat.digitChar (n % 16)]

end WhereClause
