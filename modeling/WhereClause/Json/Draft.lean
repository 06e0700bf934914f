import WhereClause.Json.Numeral

/-!
# Draft: a text read as far as it is JSON

Reading a text gives a draft whatever the text is: where it stops being JSON, the draft holds `broken` in the place of what
should have stood there and nothing after it. What a reader of values wants first, it finds first: the earliest fault in the
text decides, be it in the JSON or in what the JSON says, because a reader that walks a draft in order meets either the fault
or the break. A draft keeps numbers as numerals, keeps every member of an object, repeated ones too, and tells a string that
holds half of a surrogate pair apart from a string of characters, so that each reader decides what it accepts.
-/

namespace WhereClause

/-- A text read as far as it is JSON. -/
inductive Draft where
  | null
  | bool (b : Bool)
  | number (n : Numeral)
  | string (s : String)
  /-- A string that holds half of a surrogate pair: well formed, but no text. -/
  | unpaired
  | array (items : List Draft)
  /-- The members of an object, the key of each a `string` or `unpaired`, or `broken`. -/
  | object (members : List (Draft × Draft))
  /-- Here the text is not JSON. -/
  | broken

/-! ## Strings -/

/-- What a character or an escape in a string stands for: a character, or a unit of sixteen bits given by its number. -/
inductive Draft.Mark where
  | plain (c : Char)
  | unit (n : Nat)

/-- The number that four hexadecimal digits give. -/
def Draft.hexUnit? (a b c d : Char) : Option Nat := do
  let a ← Text.hexDigit? a
  let b ← Text.hexDigit? b
  let c ← Text.hexDigit? c
  let d ← Text.hexDigit? d
  return Text.valueOf 16 [a, b, c, d]

/-- The character that a short escape stands for. -/
def Draft.shortEscape? (c : Char) : Option Char :=
  if c = '"' ∨ c = '\\' ∨ c = '/' then some c
  else if c = 'b' then some '\x08'
  else if c = 'f' then some '\x0c'
  else if c = 'n' then some '\n'
  else if c = 'r' then some '\r'
  else if c = 't' then some '\t'
  else none

/-- The marks of a string up to its closing quote, and what follows that; none where the text breaks off or a control character
stands in it. -/
def Draft.readMarks : List Char → Option (List Draft.Mark × List Char)
  | [] => none
  | c :: rest =>
    if c = '"' then some ([], rest)
    else if c = '\\' then
      match rest with
      | [] => none
      | e :: rest =>
        if e = 'u' then
          match rest with
          | h₁ :: h₂ :: h₃ :: h₄ :: rest => do
            let n ← Draft.hexUnit? h₁ h₂ h₃ h₄
            let (marks, rest) ← Draft.readMarks rest
            return (.unit n :: marks, rest)
          | _ => none
        else do
          let e ← Draft.shortEscape? e
          let (marks, rest) ← Draft.readMarks rest
          return (.plain e :: marks, rest)
    else if c.toNat < 0x20 then none
    else do
      let (marks, rest) ← Draft.readMarks rest
      return (.plain c :: marks, rest)

/-- Whether a unit is the first half of a surrogate pair. -/
def Draft.isLead (n : Nat) : Bool := decide (0xD800 ≤ n) && decide (n < 0xDC00)

/-- Whether a unit is the second half of a surrogate pair. -/
def Draft.isTrail (n : Nat) : Bool := decide (0xDC00 ≤ n) && decide (n < 0xE000)

/-- The characters that marks stand for, a surrogate pair for one; none if half of a pair stands alone. -/
def Draft.joinMarks : List Draft.Mark → Option (List Char)
  | [] => some []
  | .plain c :: marks => (Draft.joinMarks marks).map (c :: ·)
  | .unit n :: marks =>
    if Draft.isLead n then
      match marks with
      | .unit m :: marks =>
        if Draft.isTrail m then
          (Draft.joinMarks marks).map (Char.ofNat (0x10000 + (n - 0xD800) * 0x400 + (m - 0xDC00)) :: ·)
        else none
      | _ => none
    else if Draft.isTrail n then none
    else (Draft.joinMarks marks).map (Char.ofNat n :: ·)

/-- The string a text goes on with, past its opening quote, and what follows the closing one. -/
def Draft.readString (s : List Char) : Draft × Option (List Char) :=
  match Draft.readMarks s with
  | none => (.broken, none)
  | some (marks, rest) =>
    match Draft.joinMarks marks with
    | some chars => (.string (String.ofList chars), some rest)
    | none => (.unpaired, some rest)

/-! ## Values -/

/-- Whether a character may stand between the parts of a JSON text. -/
def Draft.isSpace (c : Char) : Bool := c == ' ' || c == '\t' || c == '\n' || c == '\r'

/-- A text without the space it starts with. -/
def Draft.skipSpace (s : List Char) : List Char := s.dropWhile Draft.isSpace

mutual

/-- The value a text goes on with, as far as it is one, and what follows it, if it is one to its end. Every step takes a
character or goes one level down, so that twice the length of the text is `fuel` enough. -/
def Draft.readValue : Nat → List Char → Draft × Option (List Char)
  | 0, _ => (.broken, none)
  | fuel + 1, s =>
    match Draft.skipSpace s with
    | [] => (.broken, none)
    | '{' :: rest =>
      match Draft.skipSpace rest with
      | '}' :: rest => (.object [], some rest)
      | rest =>
        let (members, rest) := Draft.readMembers fuel rest
        (.object members, rest)
    | '[' :: rest =>
      match Draft.skipSpace rest with
      | ']' :: rest => (.array [], some rest)
      | rest =>
        let (items, rest) := Draft.readItems fuel rest
        (.array items, rest)
    | '"' :: rest => Draft.readString rest
    | 'n' :: 'u' :: 'l' :: 'l' :: rest => (.null, some rest)
    | 't' :: 'r' :: 'u' :: 'e' :: rest => (.bool true, some rest)
    | 'f' :: 'a' :: 'l' :: 's' :: 'e' :: rest => (.bool false, some rest)
    | s =>
      match Numeral.read s with
      | some (n, rest) => (.number n, some rest)
      | none => (.broken, none)

/-- The items of an array up to its closing bracket, at least one. -/
def Draft.readItems : Nat → List Char → List Draft × Option (List Char)
  | 0, _ => ([.broken], none)
  | fuel + 1, s =>
    match Draft.readValue fuel s with
    | (x, none) => ([x], none)
    | (x, some rest) =>
      match Draft.skipSpace rest with
      | ',' :: rest =>
        let (xs, rest) := Draft.readItems fuel rest
        (x :: xs, rest)
      | ']' :: rest => ([x], some rest)
      | _ => ([x, .broken], none)

/-- The members of an object up to its closing brace, at least one. -/
def Draft.readMembers : Nat → List Char → List (Draft × Draft) × Option (List Char)
  | 0, _ => ([(.broken, .broken)], none)
  | fuel + 1, s =>
    match Draft.skipSpace s with
    | '"' :: rest =>
      match Draft.readString rest with
      | (key, none) => ([(key, .broken)], none)
      | (key, some rest) =>
        match Draft.skipSpace rest with
        | ':' :: rest =>
          match Draft.readValue fuel rest with
          | (x, none) => ([(key, x)], none)
          | (x, some rest) =>
            match Draft.skipSpace rest with
            | ',' :: rest =>
              let (ms, rest) := Draft.readMembers fuel rest
              ((key, x) :: ms, rest)
            | '}' :: rest => ([(key, x)], some rest)
            | _ => ([(key, x), (.broken, .broken)], none)
        | _ => ([(key, .broken)], none)
    | _ => ([(.broken, .broken)], none)

end

/-- What a text holds: the draft of its first value, and whether nothing but space follows that. -/
structure Draft.Reading where
  value : Draft
  ends : Bool

/-- A text, read. -/
def Draft.read (s : String) : Draft.Reading :=
  let chars := s.toList
  match Draft.readValue (2 * chars.length + 2) chars with
  | (d, some rest) => ⟨d, (Draft.skipSpace rest).isEmpty⟩
  | (d, none) => ⟨d, false⟩

end WhereClause
