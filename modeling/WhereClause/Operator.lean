import WhereClause.Text.Blank

/-!
# Operator: what joins the two sides of an expression

Two operators combine conditions, the others compare. Each has a code, which is how it is written in a clause, and a name, which
is how it is written in a document. Both kinds may stand anywhere in a condition: nothing here forbids a list joined by `<`.
-/

namespace WhereClause

/-- An operator. -/
inductive Operator where
  | and | or | eq | notEq | lt | ltEq | gt | gtEq | like | notLike
  deriving DecidableEq

/-- Every operator, in the order in which a code is compared with theirs. -/
def Operator.all : List Operator := [.and, .or, .eq, .notEq, .lt, .ltEq, .gt, .gtEq, .like, .notLike]

/-- How an operator is written in a clause. -/
def Operator.code : Operator → String
  | .and => "AND"
  | .or => "OR"
  | .eq => "="
  | .notEq => "<>"
  | .lt => "<"
  | .ltEq => "<="
  | .gt => ">"
  | .gtEq => ">="
  | .like => "LIKE"
  | .notLike => "NOT LIKE"

/-- How an operator is written in a document. -/
def Operator.name : Operator → String
  | .and => "and"
  | .or => "or"
  | .eq => "eq"
  | .notEq => "not_eq"
  | .lt => "lt"
  | .ltEq => "lt_eq"
  | .gt => "gt"
  | .gtEq => "gt_eq"
  | .like => "like"
  | .notLike => "not_like"

/-- Whether an operator joins conditions. -/
def Operator.isCombinator : Operator → Bool
  | .and | .or => true
  | _ => false

/-- Whether an operator compares a field with a value. -/
def Operator.isComparison (op : Operator) : Bool := !op.isCombinator

/-- The operator of a code, which may have white space around it and its letters in either case; `!=` and `==` are also known.
-/
def Operator.ofCode? (code : String) : Option Operator :=
  let bare := Text.trim code.toList
  match Operator.all.find? fun op => op.code.toList.map Char.toUpper == bare.map Char.toUpper with
  | some op => some op
  | none => if bare = ['!', '='] then some .notEq else if bare = ['=', '='] then some .eq else none

/-- The operator of a name. -/
def Operator.ofName? (name : String) : Option Operator := Operator.all.find? fun op => op.name == name

end WhereClause
