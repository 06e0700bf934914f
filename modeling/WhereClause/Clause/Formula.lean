import WhereClause.Clause.Token
import WhereClause.Condition.Basic

/-!
# Formula: what a clause says

A comparison binds tighter than `AND`, `AND` tighter than `OR`, and parentheses enclose a whole formula. A chain of one
operator is read from the right, which for `AND` and `OR` makes no difference to what it says. What the comparisons say is not
decided here: a formula holds or does not hold once it is known of which comparisons between fields and values the same is
true.
-/

namespace WhereClause

/-- A side of a comparison. -/
inductive Formula.Side where
  | name (s : String)
  /-- The parameter of a number, counted from one. -/
  | parameter (number : Nat)

/-- What a clause says. -/
inductive Formula where
  | comparison (left : Formula.Side) (op : Operator) (right : Formula.Side)
  | both (a b : Formula)
  | either (a b : Formula)

/-! ## Reading -/

/-- Placeholders without a number given that of their place, `next` of them coming before. -/
def Token.placed : Nat → List Token → List Token
  | _, [] => []
  | next, .placeholder none :: rest => .placeholder (some (next + 1)) :: Token.placed (next + 1) rest
  | next, .placeholder (some n) :: rest => .placeholder (some n) :: Token.placed (next + 1) rest
  | next, token :: rest => token :: Token.placed next rest

/-- The side of a comparison that a token is, if it is one. -/
def Formula.Side.ofToken? : Token → Option Formula.Side
  | .name s => some (.name s)
  | .placeholder (some n) => some (.parameter n)
  | _ => none

/-- The comparison that tokens start with, and what follows it. -/
def Formula.readComparison : List Token → Option (Formula × List Token)
  | left :: .operator op :: right :: rest => do
    let left ← Formula.Side.ofToken? left
    let right ← Formula.Side.ofToken? right
    if op.isComparison then some (.comparison left op right, rest) else none
  | _ => none

mutual

/-- The formula that tokens start with, and what follows it. Between two tokens taken there are three steps at most, so that
three times their number is `fuel` enough. -/
def Formula.readEither : Nat → List Token → Option (Formula × List Token)
  | 0, _ => none
  | fuel + 1, tokens => do
    let (a, rest) ← Formula.readBoth fuel tokens
    match rest with
    | .operator .or :: rest =>
      let (b, rest) ← Formula.readEither fuel rest
      return (.either a b, rest)
    | rest => return (a, rest)

/-- The formula without an `OR` outside parentheses that tokens start with, and what follows it. -/
def Formula.readBoth : Nat → List Token → Option (Formula × List Token)
  | 0, _ => none
  | fuel + 1, tokens => do
    let (a, rest) ← Formula.readEnclosed fuel tokens
    match rest with
    | .operator .and :: rest =>
      let (b, rest) ← Formula.readBoth fuel rest
      return (.both a b, rest)
    | rest => return (a, rest)

/-- The comparison, or the formula in parentheses, that tokens start with, and what follows it. -/
def Formula.readEnclosed : Nat → List Token → Option (Formula × List Token)
  | 0, _ => none
  | fuel + 1, .opening :: tokens => do
    let (a, rest) ← Formula.readEither fuel tokens
    match rest with
    | .closing :: rest => return (a, rest)
    | _ => none
  | _ + 1, tokens => Formula.readComparison tokens

end

/-- The formula that tokens are, from the first to the last. -/
def Formula.ofTokens? (tokens : List Token) : Option Formula :=
  match Formula.readEither (3 * tokens.length + 3) tokens with
  | some (f, []) => some f
  | _ => none

/-- The formula that a clause is in a dialect. -/
def Formula.ofClause? (d : Dialect) (clause : String) : Option Formula := do
  let tokens ← Token.read d clause.toList
  Formula.ofTokens? (Token.placed 0 tokens)

/-! ## What it says -/

/-- The operand that a side stands for, given the values of the parameters. -/
def Formula.Side.operand (values : List Value) : Formula.Side → Operand
  | .name s => .field s
  | .parameter n => .value (values[n - 1]?.getD .null)

/-- Whether a formula holds, given the values of the parameters and which comparisons are true. -/
def Formula.holds (truth : Expr → Bool) (values : List Value) : Formula → Bool
  | .comparison left op right => truth ⟨left.operand values, op, right.operand values⟩
  | .both a b => a.holds truth values && b.holds truth values
  | .either a b => a.holds truth values || b.holds truth values

end WhereClause
