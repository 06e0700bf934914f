import WhereClause.Dialect
import WhereClause.Operator
import WhereClause.Text.Digits

/-!
# Token: a clause as a database reads it

A clause is read from left to right, spaces passed over. A quote opens a name that runs to the next quote standing alone,
where two quotes in a row stand for one in the name. Placeholders, parentheses and the codes of operators are read as they are
spelled, of two codes the longer. Dialects without quotes have no names that could be told from the rest, so that a clause
with names is not read in them.
-/

namespace WhereClause

/-- A word of a clause. -/
inductive Token where
  /-- A name, its quotes taken off. -/
  | name (s : String)
  /-- A placeholder, with its number where it has one. -/
  | placeholder (number : Option Nat)
  | opening
  | closing
  | operator (op : Operator)
  deriving DecidableEq

/-- The name up to the first quote that stands alone, its opening quote passed already, and what follows that quote. -/
def Dialect.readQuoted (quote : Char) : List Char → Option (List Char × List Char)
  | [] => none
  | c :: rest =>
    if c = quote then
      match rest with
      | [] => some ([], [])
      | d :: more =>
        if d = quote then (Dialect.readQuoted quote more).map fun (inside, rest) => (quote :: inside, rest)
        else some ([], d :: more)
    else (Dialect.readQuoted quote rest).map fun (inside, rest) => (c :: inside, rest)

/-- The identifier that a text starts with, its quotes taken off, and what follows it. -/
def Dialect.readIdentifier (d : Dialect) : List Char → Option (String × List Char)
  | [] => none
  | c :: rest =>
    if d.quote? = some c then (Dialect.readQuoted c rest).map fun (inside, rest) => (String.ofList inside, rest) else none

/-- The placeholder that a text starts with, and what follows it. -/
def Dialect.readPlaceholder : Dialect → List Char → Option (Option Nat × List Char)
  | .postgres, '$' :: rest =>
    let (digits, rest) := Text.spanDigits rest
    if digits.isEmpty then none else some (some (Nat.ofDigitChars 10 digits 0), rest)
  | .postgres, _ => none
  | _, '?' :: rest => some (none, rest)
  | _, _ => none

/-- Every operator, one whose code begins with the code of another before that one. -/
def Operator.longestFirst : List Operator := [.notLike, .like, .and, .or, .notEq, .ltEq, .gtEq, .eq, .lt, .gt]

/-- The operator with whose code a text starts, of several the one with the longest code, and what follows it. -/
def Operator.readCode (s : List Char) : Option (Operator × List Char) :=
  (Operator.longestFirst.find? fun op => op.code.toList.isPrefixOf s).map fun op => (op, s.drop op.code.toList.length)

/-- The first token of a text that does not start with a space, and what follows it. -/
def Token.readOne (d : Dialect) : List Char → Option (Token × List Char)
  | [] => none
  | c :: rest =>
    if c = '(' then some (.opening, rest)
    else if c = ')' then some (.closing, rest)
    else if d.quote? = some c then (Dialect.readQuoted c rest).map fun (inside, rest) => (.name (String.ofList inside), rest)
    else
      match d.readPlaceholder (c :: rest) with
      | some (number, rest) => some (.placeholder number, rest)
      | none => (Operator.readCode (c :: rest)).map fun (op, rest) => (.operator op, rest)

/-- The tokens of a text, read to its end; none where it cannot be read. -/
def Token.read (d : Dialect) (s : List Char) : Option (List Token) :=
  match s with
  | [] => some []
  | c :: more =>
    if c = ' ' then Token.read d more
    else
      match Token.readOne d (c :: more) with
      | none => none
      | some (token, rest) =>
        if rest.length ≤ more.length then (Token.read d rest).map (token :: ·) else none
termination_by s.length

/-- Placeholders numbered as a dialect numbers them, the first of them having the number `next`, counted from zero. -/
def Token.numbered (d : Dialect) : Nat → List Token → List Token
  | _, [] => []
  | next, .placeholder _ :: rest =>
    .placeholder (if d = .postgres then some (next + 1) else none) :: Token.numbered d (next + 1) rest
  | next, token :: rest => token :: Token.numbered d next rest

/-- A quoted name is read back to its end, whatever follows that is not a quote. -/
theorem Dialect.readQuoted_doubled (quote : Char) (name rest : List Char) (h : rest.head? ≠ some quote) :
    Dialect.readQuoted quote (Dialect.doubled quote name ++ quote :: rest) = some (name, rest) := by
  induction name with
  | nil =>
    cases rest with
    | nil => simp [Dialect.doubled, Dialect.readQuoted]
    | cons d rest =>
      have hd : d ≠ quote := fun e => h (by simp [e])
      simp [Dialect.doubled, Dialect.readQuoted, hd]
  | cons c name ih =>
    simp only [Dialect.doubled] at ih
    by_cases hc : c = quote
    · subst hc
      simp [Dialect.doubled, Dialect.readQuoted, ih]
    · rw [Dialect.readQuoted.eq_def]
      simp [Dialect.doubled, hc, ih]

end WhereClause
