import WhereClause.Renderer

/-!
# Piece: the parts of a clause before a dialect spells them

Dialects differ in how they spell a name and a placeholder, and in nothing else. So a clause is a sequence of pieces: text that
every dialect writes alike, names, and the slots of the parameters. A dialect spells the pieces one after the other, the slots
numbered in the order of the text.
-/

namespace WhereClause

/-- A part of a clause, before a dialect spells it. -/
inductive Piece where
  /-- Text that every dialect writes alike. -/
  | text (s : String)
  /-- A name, which a dialect may quote. -/
  | name (s : String)
  /-- The place of a parameter. -/
  | slot (p : Parameter)

/-- The code of an operator between spaces. -/
def Piece.operator (code : String) : Piece := .text (" " ++ code ++ " ")

/-- How a dialect spells pieces, the first slot having the number `next`, counted from zero. -/
def Piece.spell (d : Dialect) : Nat → List Piece → String
  | _, [] => ""
  | next, .text s :: rest => s ++ Piece.spell d next rest
  | next, .name s :: rest => d.identifier s ++ Piece.spell d next rest
  | next, .slot _ :: rest => d.placeholder next ++ Piece.spell d (next + 1) rest

/-- The parameter whose place a piece is, if it is one. -/
def Piece.parameter? : Piece → Option Parameter
  | .slot p => some p
  | _ => none

/-- The name that a piece is, if it is one. -/
def Piece.name? : Piece → Option String
  | .name s => some s
  | _ => none

/-- The parameters of pieces, in the order of their slots. -/
def Piece.parameters (pieces : List Piece) : List Parameter := pieces.filterMap Piece.parameter?

/-- The names among pieces, in order. -/
def Piece.names (pieces : List Piece) : List String := pieces.filterMap Piece.name?

/-- Pieces spelled after others are numbered on from theirs. -/
theorem Piece.spell_append (d : Dialect) (next : Nat) (ps qs : List Piece) :
    Piece.spell d next (ps ++ qs) = Piece.spell d next ps ++ Piece.spell d (next + (Piece.parameters ps).length) qs := by
  induction ps generalizing next with
  | nil => simp [Piece.spell, Piece.parameters]
  | cons p ps ih =>
    cases p <;>
      simp [Piece.spell, Piece.parameters, Piece.parameter?, List.filterMap_cons, ih, String.append_assoc, Nat.add_assoc,
        Nat.add_comm 1]

end WhereClause
