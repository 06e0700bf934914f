import WhereClause.Bindings
import WhereClause.Double.Basic

/-!
# Json: JSON values

A number is whole, and then between the least signed and the greatest unsigned number of 64 bits, or a finite double. An
object is the list of its entries as they stand, so that what is written in a given order is written in that order. Where
objects are maps, their entries are in rising order of the keys, each key once: those are the documents (`Document`), and two
documents are told apart by `Json.same`, which compares numbers as the same kind of number, and floats as IEEE 754 does.
-/

namespace WhereClause

/-- A JSON number: whole, if it is written without fraction and exponent and fits 64 bits, else a finite double. -/
inductive Json.Number where
  | whole (n : Int) (fits : -0x8000000000000000 ≤ n ∧ n < 0x10000000000000000)
  | float (x : Double) (finite : x.isFinite = true)
  deriving DecidableEq

/-- A JSON value, the entries of its objects in the order in which they stand. -/
inductive Json where
  | null
  | bool (b : Bool)
  | number (n : Json.Number)
  | string (s : String)
  | array (items : List Json)
  | object (entries : List (String × Json))

/-- Whether two numbers are of one kind and equal; floats are compared as IEEE 754 compares them. -/
def Json.Number.same : Json.Number → Json.Number → Bool
  | .whole n _, .whole m _ => n == m
  | .float x _, .float y _ => x.same y
  | _, _ => false

mutual

/-- Whether two values are equal throughout, their numbers by `Json.Number.same`. -/
def Json.same : Json → Json → Bool
  | .null, .null => true
  | .bool a, .bool b => a == b
  | .number a, .number b => a.same b
  | .string a, .string b => a == b
  | .array xs, .array ys => Json.sameItems xs ys
  | .object es, .object fs => Json.sameEntries es fs
  | _, _ => false

/-- Whether two lists of values are equal item by item. -/
def Json.sameItems : List Json → List Json → Bool
  | [], [] => true
  | x :: xs, y :: ys => x.same y && Json.sameItems xs ys
  | _, _ => false

/-- Whether two lists of entries are equal entry by entry. -/
def Json.sameEntries : List (String × Json) → List (String × Json) → Bool
  | [], [] => true
  | (k, x) :: es, (l, y) :: fs => k == l && x.same y && Json.sameEntries es fs
  | _, _ => false

end

mutual

/-- Whether every object in a value has its keys in rising order. -/
def Json.isSorted : Json → Bool
  | .array items => Json.isSortedItems items
  | .object entries => decide (Entries.Rising entries) && Json.isSortedEntries entries
  | _ => true

/-- Whether every object in the items of an array has its keys in rising order. -/
def Json.isSortedItems : List Json → Bool
  | [] => true
  | x :: xs => x.isSorted && Json.isSortedItems xs

/-- Whether every object in the values of an object has its keys in rising order. -/
def Json.isSortedEntries : List (String × Json) → Bool
  | [] => true
  | (_, x) :: es => x.isSorted && Json.isSortedEntries es

end

mutual

/-- A value with every object in it put in rising order of its keys, where of a repeated key the last value stays. -/
def Json.sort : Json → Json
  | .array items => .array (Json.sortItems items)
  | .object entries => .object (Entries.ofList (Json.sortValues entries))
  | j => j

/-- The items of an array, each sorted. -/
def Json.sortItems : List Json → List Json
  | [] => []
  | x :: xs => x.sort :: Json.sortItems xs

/-- The entries of an object, the value of each sorted. -/
def Json.sortValues : List (String × Json) → List (String × Json)
  | [] => []
  | (k, x) :: es => (k, x.sort) :: Json.sortValues es

end

/-! ## Sorting sorts -/

/-- Entries are sorted throughout exactly when each value is. -/
theorem Json.isSortedEntries_iff (entries : List (String × Json)) :
    Json.isSortedEntries entries = true ↔ ∀ e ∈ entries, e.2.isSorted = true := by
  induction entries with
  | nil => simp [Json.isSortedEntries]
  | cons e es ih => simp [Json.isSortedEntries, ih]

mutual

/-- A sorted value is sorted throughout. -/
theorem Json.isSorted_sort : ∀ j : Json, j.sort.isSorted = true
  | .null => rfl
  | .bool _ => rfl
  | .number _ => rfl
  | .string _ => rfl
  | .array items => by simp only [Json.sort, Json.isSorted, Json.isSortedItems_sortItems items]
  | .object entries => by
    simp only [Json.sort, Json.isSorted, Bool.and_eq_true, decide_eq_true_eq]
    refine ⟨Entries.rising_ofList _, (Json.isSortedEntries_iff _).2 fun e he => ?_⟩
    exact (Json.isSortedEntries_iff _).1 (Json.isSortedEntries_sortValues entries) e (Entries.mem_of_mem_ofList he)

theorem Json.isSortedItems_sortItems : ∀ items : List Json, Json.isSortedItems (Json.sortItems items) = true
  | [] => rfl
  | x :: xs => by
    simp only [Json.sortItems, Json.isSortedItems, Json.isSorted_sort x, Json.isSortedItems_sortItems xs, Bool.and_self]

theorem Json.isSortedEntries_sortValues :
    ∀ entries : List (String × Json), Json.isSortedEntries (Json.sortValues entries) = true
  | [] => rfl
  | (k, x) :: es => by
    simp only [Json.sortValues, Json.isSortedEntries, Json.isSorted_sort x, Json.isSortedEntries_sortValues es, Bool.and_self]

end

/-- A document: a JSON value whose objects are maps, their entries in rising order of the keys. -/
structure Document where
  tree : Json
  sorted : tree.isSorted = true

/-- The document a JSON value denotes: of a repeated key the last value counts, and the order of keys does not. -/
def Document.ofJson (j : Json) : Document := ⟨j.sort, Json.isSorted_sort j⟩

/-- Whether two documents are equal as JSON. -/
def Document.same (a b : Document) : Bool := a.tree.same b.tree

end WhereClause
