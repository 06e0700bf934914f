import WhereClause.Text.Blank
import WhereClause.Text.Digits

/-!
# Date: days of the Gregorian calendar, carried back before its start

Years run from -262143 to 262142. A date is written as year, month and day with hyphens between them, the month and the day with
two digits, the year with four, and with a sign in front where four digits do not hold it. Reading is looser: each number may
have fewer digits and white space before it, the hyphens may have white space before them, and a year with a sign may have any
number of digits.
-/

namespace WhereClause

/-- Whether a year has a 29th of February. -/
def Date.isLeap (year : Int) : Bool := year % 4 == 0 && (year % 100 != 0 || year % 400 == 0)

/-- The number of days of a month. -/
def Date.daysIn (year : Int) (month : Nat) : Nat :=
  if month = 2 then (if Date.isLeap year then 29 else 28)
  else if month = 4 ∨ month = 6 ∨ month = 9 ∨ month = 11 then 30
  else 31

/-- Whether three numbers name a day, in the years that are covered. -/
def Date.names (year : Int) (month day : Nat) : Bool :=
  decide (-262143 ≤ year) && decide (year ≤ 262142) && decide (1 ≤ month) && decide (month ≤ 12) && decide (1 ≤ day) &&
    decide (day ≤ Date.daysIn year month)

/-- A day of the calendar. -/
structure Date where
  year : Int
  month : Nat
  day : Nat
  valid : Date.names year month day = true
  deriving DecidableEq

/-- The day that three numbers name, if they name one. -/
def Date.of? (year : Int) (month day : Nat) : Option Date :=
  if h : Date.names year month day = true then some ⟨year, month, day, h⟩ else none

/-- The day after. -/
def Date.next? (d : Date) : Option Date :=
  if d.day < Date.daysIn d.year d.month then Date.of? d.year d.month (d.day + 1)
  else if d.month < 12 then Date.of? d.year (d.month + 1) 1
  else Date.of? (d.year + 1) 1 1

/-- The day before. -/
def Date.previous? (d : Date) : Option Date :=
  if 1 < d.day then Date.of? d.year d.month (d.day - 1)
  else if 1 < d.month then Date.of? d.year (d.month - 1) (Date.daysIn d.year (d.month - 1))
  else Date.of? (d.year - 1) 12 31

/-! ## Reading -/

/-- The number of no more than `most` digits that a text goes on with after white space, and what follows it. -/
def Date.number? (most : Nat) (s : List Char) : Option (Nat × List Char) :=
  let (digits, rest) := Text.spanDigitsUpTo most (Text.trimLeft s)
  if digits.isEmpty then none else some (Nat.ofDigitChars 10 digits 0, rest)

/-- The number that all the digits a text starts with give, and what follows them. -/
def Date.digits? (s : List Char) : Option (Nat × List Char) :=
  let (digits, rest) := Text.spanDigits s
  if digits.isEmpty then none else some (Nat.ofDigitChars 10 digits 0, rest)

/-- The year that a text goes on with after white space: four digits at most, or a sign and any number of digits. -/
def Date.year? (s : List Char) : Option (Int × List Char) :=
  match Text.trimLeft s with
  | '-' :: rest => (Date.digits? rest).map fun r => (-(r.1 : Int), r.2)
  | '+' :: rest => (Date.digits? rest).map fun r => ((r.1 : Int), r.2)
  | s => (Date.number? 4 s).map fun r => ((r.1 : Int), r.2)

/-- What follows a character that a text goes on with after white space. -/
def Date.mark? (c : Char) (s : List Char) : Option (List Char) :=
  match Text.trimLeft s with
  | d :: rest => if d = c then some rest else none
  | [] => none

/-- The three numbers of a date that a text starts with, and what follows them. -/
def Date.scan? (s : List Char) : Option ((Int × Nat × Nat) × List Char) := do
  let (year, s) ← Date.year? s
  let s ← Date.mark? '-' s
  let (month, s) ← Date.number? 2 s
  let s ← Date.mark? '-' s
  let (day, s) ← Date.number? 2 s
  return ((year, month, day), s)

/-- The date a text denotes. -/
def Date.ofText? (s : String) : Option Date := do
  let ((year, month, day), rest) ← Date.scan? s.toList
  if (Text.trimLeft rest).isEmpty then Date.of? year month day else none

/-! ## Writing -/

/-- A year, with its sign where four digits do not hold it. -/
def Date.writeYear (year : Int) : List Char :=
  if 0 ≤ year ∧ year ≤ 9999 then Text.padded 4 year.natAbs
  else (if year < 0 then '-' else '+') :: Text.padded 4 year.natAbs

/-- A date as year, month and day. -/
def Date.write (d : Date) : List Char :=
  Date.writeYear d.year ++ '-' :: Text.padded 2 d.month ++ '-' :: Text.padded 2 d.day

/-- A date as a text. -/
def Date.text (d : Date) : String := String.ofList d.write

end WhereClause
