import WhereClause.Text.Digits

/-!
# Uuid: identifiers of 128 bits and their written forms

A uuid is written as 32 hexadecimal digits in lower case, hyphens after the 8th, 12th, 16th and 20th. It is read in that form,
in that form inside braces or after `urn:uuid:`, and as 32 digits without hyphens; letters may be of either case.
-/

namespace WhereClause

/-- An identifier of 128 bits. -/
structure Uuid where
  word : BitVec 128
  deriving DecidableEq

/-- The uuid of 32 hexadecimal digits. -/
def Uuid.ofDigits? (s : List Char) : Option Uuid := do
  let digits ← s.mapM Text.hexDigit?
  if digits.length = 32 then some ⟨BitVec.ofNat 128 (Text.valueOf 16 digits)⟩ else none

/-- The uuid of 32 hexadecimal digits in five groups with hyphens between them. -/
def Uuid.ofGroups? (s : List Char) : Option Uuid :=
  if s.length = 36 ∧ [8, 13, 18, 23].all (fun i => s[i]? == some '-') then Uuid.ofDigits? (s.filter (· != '-')) else none

/-- Whether a text starts with the name of the namespace of uuids, in either case. -/
def Uuid.namesSpace (s : List Char) : Bool := (s.take 9).map Char.toLower == "urn:uuid:".toList

/-- The uuid a text denotes, in any of its forms. -/
def Uuid.ofText? (s : String) : Option Uuid :=
  let chars := s.toList
  if chars.length = 32 then Uuid.ofDigits? chars
  else if chars.length = 38 ∧ chars.head? = some '\x7b' ∧ chars.getLast? = some '\x7d' then
    Uuid.ofGroups? (chars.drop 1).dropLast
  else if Uuid.namesSpace chars then Uuid.ofGroups? (chars.drop 9)
  else Uuid.ofGroups? chars

/-- A uuid as five groups of digits with hyphens between them. -/
def Uuid.write (u : Uuid) : List Char :=
  let digits := Text.hexPadded 32 u.word.toNat
  digits.take 8 ++ '-' :: (digits.drop 8).take 4 ++ '-' :: (digits.drop 12).take 4 ++ '-' :: (digits.drop 16).take 4 ++
    '-' :: digits.drop 20

/-- A uuid as a text. -/
def Uuid.text (u : Uuid) : String := String.ofList u.write

end WhereClause
