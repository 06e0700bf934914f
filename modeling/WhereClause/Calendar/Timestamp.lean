import WhereClause.Calendar.Date

/-!
# Timestamp: moments in coordinated universal time, to the nanosecond

A moment is a day, a second of that day and a fraction of that second. A second that was put in at the end of a minute is the
minute's last one with a fraction of a whole second or more. A moment is written with a `T` before the time and a `Z` after it,
and with the fraction in 3, 6 or 9 digits, the fewest that hold it, or left out when it is nothing. It is read with any offset,
which is taken off; a space may stand for the `T`, white space may stand before each part, and the second may be 60.
-/

namespace WhereClause

/-- A moment: a day, a second of the day, and nanoseconds of that second. -/
structure Timestamp where
  date : Date
  second : Nat
  nano : Nat
  inDay : second < 86400 ∧ nano < 2000000000
  deriving DecidableEq

/-- The moment that a second of a day, with nanoseconds, names. -/
def Timestamp.of? (date : Date) (second nano : Nat) : Option Timestamp :=
  if h : second < 86400 ∧ nano < 2000000000 then some ⟨date, second, nano, h⟩ else none

/-- The moment that local time names at an offset of so many seconds, by less than a day, from universal time. -/
def Timestamp.atOffset? (date : Date) (second nano : Nat) (offset : Int) : Option Timestamp := do
  let shifted := (second : Int) - offset
  let day ← if shifted < 0 then date.previous? else if 86400 ≤ shifted then date.next? else some date
  Timestamp.of? day (shifted % 86400).toNat nano

/-! ## Reading -/

/-- The nanoseconds that digits after a point give: nine digits count, those after them do not. -/
def Timestamp.nanos (digits : List Char) : Nat :=
  let counted := digits.take 9
  Nat.ofDigitChars 10 counted 0 * Nat.pow 10 (9 - counted.length)

/-- The fraction of a second that a text goes on with, if a point is next, and what follows it. -/
def Timestamp.fraction? (s : List Char) : Option (Nat × List Char) :=
  match s with
  | '.' :: rest =>
    let (digits, rest) := Text.spanDigits rest
    if digits.isEmpty then none else some (Timestamp.nanos digits, rest)
  | _ => some (0, s)

/-- The second of the day and its nanoseconds that a text goes on with, and what follows them. Second 60 is second 59 and a
whole second more. -/
def Timestamp.time? (s : List Char) : Option ((Nat × Nat) × List Char) := do
  let (hour, s) ← Date.number? 2 s
  let s ← Date.mark? ':' s
  let (minute, s) ← Date.number? 2 s
  let s ← Date.mark? ':' s
  let (second, s) ← Date.number? 2 s
  let (nano, s) ← Timestamp.fraction? s
  if 23 < hour ∨ 59 < minute ∨ 60 < second then none
  else if second = 60 then some ((hour * 3600 + minute * 60 + 59, nano + 1000000000), s)
  else some ((hour * 3600 + minute * 60 + second, nano), s)

/-- A number of exactly two digits that a text starts with, and what follows it. -/
def Timestamp.two? : List Char → Option (Nat × List Char)
  | a :: b :: rest => do
    let a ← Text.digit? a
    let b ← Text.digit? b
    return (10 * a + b, rest)
  | _ => none

/-- Whether a text starts with the name of universal time, in either case. -/
def Timestamp.namesUniversal (s : List Char) : Bool := (s.take 3).map Char.toUpper == ['U', 'T', 'C']

/-- The offset in seconds that a text goes on with, and what follows it: a `Z`, the name of universal time, or a sign, hours and
minutes, which colons and white space may keep apart. The minus sign proper stands for the hyphen. -/
def Timestamp.offset? (s : List Char) : Option (Int × List Char) :=
  if Timestamp.namesUniversal s then some (0, s.drop 3)
  else
    match s with
    | [] => none
    | c :: rest =>
      if c = 'Z' ∨ c = 'z' then some (0, rest)
      else if c = '+' ∨ c = '-' ∨ c = '\u2212' then do
        let (hours, rest) ← Timestamp.two? rest
        let (minutes, rest) ← Timestamp.two? (rest.dropWhile fun d => d == ':' || Text.isBlank d)
        if 23 < hours ∨ 59 < minutes then none
        else
          let seconds : Int := hours * 3600 + minutes * 60
          some (if c = '+' then seconds else -seconds, rest)
      else none

/-- What follows the character between a date and a time. -/
def Timestamp.parted? : List Char → Option (List Char)
  | c :: rest => if c = 'T' ∨ c = 't' ∨ c = ' ' then some rest else none
  | [] => none

/-- The moment a text denotes. -/
def Timestamp.ofText? (s : String) : Option Timestamp := do
  let ((year, month, day), s) ← Date.scan? s.toList
  let s ← Timestamp.parted? s
  let ((second, nano), s) ← Timestamp.time? s
  let (offset, s) ← Timestamp.offset? (Text.trimLeft s)
  if (Text.trimLeft s).isEmpty then
    let date ← Date.of? year month day
    Timestamp.atOffset? date second nano offset
  else none

/-! ## Writing -/

/-- The fraction of a second in 3, 6 or 9 digits after a point, or nothing. -/
def Timestamp.writeFraction (nano : Nat) : List Char :=
  if nano = 0 then []
  else if nano % 1000000 = 0 then '.' :: Text.padded 3 (nano / 1000000)
  else if nano % 1000 = 0 then '.' :: Text.padded 6 (nano / 1000)
  else '.' :: Text.padded 9 nano

/-- A moment as date and time, in universal time. -/
def Timestamp.write (t : Timestamp) : List Char :=
  let second := t.second % 60 + t.nano / 1000000000
  t.date.write ++ 'T' :: Text.padded 2 (t.second / 3600) ++ ':' :: Text.padded 2 (t.second / 60 % 60) ++
    ':' :: Text.padded 2 second ++ Timestamp.writeFraction (t.nano % 1000000000) ++ ['Z']

/-- A moment as a text. -/
def Timestamp.text (t : Timestamp) : String := String.ofList t.write

end WhereClause
