import WhereClause.Json.Decode
import WhereClause.Json.Writer

/-!
# Echo: what reading a written value gives

A JSON value that has been written reads as a draft that is known beforehand (`Json.draft`): the same value, with each number
as the numeral it is written as. Whether a float is still the same after that is a question of its digits: a numeral stands
for a double that is found in two rounded steps, so that the shortest digits that name a double may be read as its neighbour.
A double that is read as it was written reads back (`Double.ReadsBack`).
-/

namespace WhereClause

/-- Whether what is written for a double is a numeral that stands for that double. -/
def Double.ReadsBack (x : Double) : Prop := ∃ n, Numeral.read x.write = some (n, []) ∧ n.toDouble? = some x

instance (x : Double) : Decidable x.ReadsBack :=
  match hread : Numeral.read x.write with
  | none => isFalse fun ⟨_, h, _⟩ => nomatch hread.symm.trans h
  | some (_, _ :: _) => isFalse fun ⟨_, h, _⟩ => nomatch (Prod.mk.inj (Option.some.inj (hread.symm.trans h))).2
  | some (n, []) =>
    decidable_of_iff (n.toDouble? = some x)
      ⟨fun h => ⟨n, hread, h⟩, fun ⟨_, h, hx⟩ => (Prod.mk.inj (Option.some.inj (hread.symm.trans h))).1 ▸ hx⟩

/-- The numeral that a number is written as. -/
def Json.Number.numeral (n : Json.Number) : Numeral :=
  match Numeral.read n.write with
  | some (numeral, _) => numeral
  | none => ⟨false, [], [], none⟩

mutual

/-- The draft of a value: what its text is read as. -/
def Json.draft : Json → Draft
  | .null => .null
  | .bool b => .bool b
  | .number n => .number n.numeral
  | .string s => .string s
  | .array items => .array (Json.draftItems items)
  | .object entries => .object (Json.draftEntries entries)

/-- The drafts of the items of an array. -/
def Json.draftItems : List Json → List Draft
  | [] => []
  | x :: xs => x.draft :: Json.draftItems xs

/-- The drafts of the entries of an object. -/
def Json.draftEntries : List (String × Json) → List (Draft × Draft)
  | [] => []
  | (k, x) :: es => (.string k, x.draft) :: Json.draftEntries es

end

mutual

/-- How deep a value is nested: the number of arrays and objects on the longest way in. -/
def Json.height : Json → Nat
  | .array items => Json.heightOf items + 1
  | .object entries => Json.heightOfEntries entries + 1
  | _ => 0

/-- How deep the items of an array are nested. -/
def Json.heightOf : List Json → Nat
  | [] => 0
  | x :: xs => max x.height (Json.heightOf xs)

/-- How deep the entries of an object are nested. -/
def Json.heightOfEntries : List (String × Json) → Nat
  | [] => 0
  | (_, x) :: es => max x.height (Json.heightOfEntries es)

end

mutual

/-- The floats in a value. -/
def Json.floats : Json → List Double
  | .number (.float x _) => [x]
  | .array items => Json.floatsOf items
  | .object entries => Json.floatsOfEntries entries
  | _ => []

/-- The floats in the items of an array. -/
def Json.floatsOf : List Json → List Double
  | [] => []
  | x :: xs => x.floats ++ Json.floatsOf xs

/-- The floats in the entries of an object. -/
def Json.floatsOfEntries : List (String × Json) → List Double
  | [] => []
  | (_, x) :: es => x.floats ++ Json.floatsOfEntries es

end

end WhereClause
