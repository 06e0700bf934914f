import Mathlib.Data.List.Forall2
import WhereClause.Condition.Nodes
import WhereClause.Condition.Outline
import WhereClause.Proofs.Counting

/-!
# Reading: the clause of a condition read back as tokens

In the dialects that quote identifiers, the clause of a condition without text of the caller's is read to its end, and as the
tokens met when going through the condition from left to right (`Condition.read_clause`). So no name, whatever is in it, ends
its own quotes or is taken for anything else.

A name is read to its closing quote unless a quote follows that, and a placeholder to its last digit unless a digit follows. So
what pieces read as is said for every text that may follow them (`Piece.ReadAs`), and of that text no more is asked than that
it is empty or starts with a space or a closing parenthesis (`Text.Separates`), as every text does in which a piece can find
itself.
-/

namespace WhereClause

/-- A text that no name and no number before it runs on into: it is empty or starts with a space or a closing parenthesis. -/
def Text.Separates (s : List Char) : Prop := ∀ c, s.head? = some c → c = ' ' ∨ c = ')'

theorem Text.separates_nil : Text.Separates [] := nofun

theorem Text.separates_space (s : List Char) : Text.Separates (' ' :: s) := by
  intro c hc
  exact .inl (Option.some.inj hc).symm

theorem Text.separates_closing (s : List Char) : Text.Separates (')' :: s) := by
  intro c hc
  exact .inr (Option.some.inj hc).symm

/-- A quote is none of the characters that something other than a name starts with. -/
theorem Dialect.quote_ne {d : Dialect} {q : Char} (hq : d.quote? = some q) : q ≠ ' ' ∧ q ≠ '(' ∧ q ≠ ')' := by
  cases d with
  | standard => nomatch hq
  | postgres =>
    obtain rfl : '"' = q := Option.some.inj hq
    decide
  | mysql =>
    obtain rfl : '\x60' = q := Option.some.inj hq
    decide

/-- A dialect other than the standard one has a quote. -/
theorem Dialect.exists_quote {d : Dialect} (hd : d ≠ .standard) : ∃ q, d.quote? = some q := by
  cases d with
  | standard => exact absurd rfl hd
  | postgres => exact ⟨_, rfl⟩
  | mysql => exact ⟨_, rfl⟩

/-! ## Reading one token -/

theorem Token.read_nil (d : Dialect) : Token.read d [] = some [] := by
  rw [Token.read]

theorem Token.read_space (d : Dialect) (s : List Char) : Token.read d (' ' :: s) = Token.read d s := by
  rw [Token.read, if_pos rfl]

/-- A text that starts with a token is read as that token and the tokens of what follows it. -/
theorem Token.read_of_readOne {d : Dialect} {c : Char} {s rest : List Char} {t : Token} (hc : c ≠ ' ')
    (ht : Token.readOne d (c :: s) = some (t, rest)) (hl : rest.length ≤ s.length) :
    Token.read d (c :: s) = (Token.read d rest).map (t :: ·) := by
  rw [Token.read, if_neg hc, ht]
  simp only [if_pos hl]

theorem Token.read_opening (d : Dialect) (rest : List Char) :
    Token.read d ('(' :: rest) = (Token.read d rest).map (.opening :: ·) :=
  Token.read_of_readOne (by decide) rfl (Nat.le_refl _)

theorem Token.read_closing (d : Dialect) (rest : List Char) :
    Token.read d (')' :: rest) = (Token.read d rest).map (.closing :: ·) :=
  Token.read_of_readOne (by decide) rfl (Nat.le_refl _)

/-- The code of an operator between spaces is read as that operator: no code that a space follows begins a longer one. -/
theorem Token.read_code (d : Dialect) (op : Operator) (rest : List Char) :
    Token.read d ((" " ++ op.code ++ " ").toList ++ rest) = (Token.read d rest).map (.operator op :: ·) := by
  have hone : Token.readOne d (op.code.toList ++ ' ' :: rest) = some (.operator op, ' ' :: rest) := by
    cases op <;> cases d <;> rfl
  obtain ⟨c, s, hs, hc⟩ : ∃ c s, op.code.toList = c :: s ∧ c ≠ ' ' := by
    cases op <;> exact ⟨_, _, rfl, by decide⟩
  have htext : (" " ++ op.code ++ " ").toList ++ rest = ' ' :: (op.code.toList ++ ' ' :: rest) := by
    simp
  rw [htext, Token.read_space, hs, List.cons_append, Token.read_of_readOne hc, Token.read_space]
  · rw [← List.cons_append, ← hs]
    exact hone
  · simp

/-- An identifier is read as its name, whatever stands in the name. -/
theorem Token.read_identifier {d : Dialect} (hd : d ≠ .standard) (name : String) {rest : List Char}
    (hrest : Text.Separates rest) :
    Token.read d ((d.identifier name).toList ++ rest) = (Token.read d rest).map (.name name :: ·) := by
  obtain ⟨q, hq⟩ := Dialect.exists_quote hd
  obtain ⟨hspace, hopening, hclosing⟩ := Dialect.quote_ne hq
  have hnext : rest.head? ≠ some q := by
    intro h
    rcases hrest q h with rfl | rfl
    · exact hspace rfl
    · exact hclosing rfl
  have htext : (d.identifier name).toList ++ rest = q :: (Dialect.doubled q name.toList ++ q :: rest) := by
    simp [Dialect.identifier, hq]
  have hone : Token.readOne d (q :: (Dialect.doubled q name.toList ++ q :: rest)) = some (.name name, rest) := by
    simp only [Token.readOne, if_neg hopening, if_neg hclosing, if_pos hq]
    rw [Dialect.readQuoted_doubled q name.toList rest hnext]
    simp
  rw [htext, Token.read_of_readOne hspace hone]
  simp only [List.length_append, List.length_cons]
  omega

/-- The digits that a text starts with are those before a text that separates. -/
theorem Text.spanDigits_of_separates {ds rest : List Char} (hds : ∀ c ∈ ds, c.isDigit = true) (hrest : Text.Separates rest) :
    Text.spanDigits (ds ++ rest) = (ds, rest) := by
  unfold Text.spanDigits
  rw [List.takeWhile_append_of_pos hds, List.dropWhile_append_of_pos hds]
  cases rest with
  | nil => simp
  | cons c rest =>
    have hc : c.isDigit = false := by
      rcases hrest c rfl with rfl | rfl <;> decide
    simp [hc]

/-- A placeholder is read with the number that its dialect writes into it. -/
theorem Token.read_placeholder {d : Dialect} (hd : d ≠ .standard) (i : Nat) {rest : List Char} (hrest : Text.Separates rest) :
    Token.read d ((d.placeholder i).toList ++ rest) =
      (Token.read d rest).map (.placeholder (if d = .postgres then some (i + 1) else none) :: ·) := by
  cases d with
  | standard => exact absurd rfl hd
  | mysql =>
    have htext : (Dialect.mysql.placeholder i).toList ++ rest = '?' :: rest := by
      simp [Dialect.placeholder]
    have hone : Token.readOne .mysql ('?' :: rest) = some (.placeholder none, rest) := rfl
    rw [htext, Token.read_of_readOne (by decide) hone (Nat.le_refl _)]
    rfl
  | postgres =>
    have htext : (Dialect.postgres.placeholder i).toList ++ rest = '$' :: (Nat.toDigits 10 (i + 1) ++ rest) := by
      simp [Dialect.placeholder]
    have hdigits : Text.spanDigits (Nat.toDigits 10 (i + 1) ++ rest) = (Nat.toDigits 10 (i + 1), rest) :=
      Text.spanDigits_of_separates (fun c hc => Nat.isDigit_of_mem_toDigits (by decide) (by decide) hc) hrest
    have hone : Token.readOne .postgres ('$' :: (Nat.toDigits 10 (i + 1) ++ rest)) =
        some (.placeholder (some (i + 1)), rest) := by
      simp [Token.readOne, Dialect.quote?, Dialect.readPlaceholder, hdigits, Nat.ofDigitChars_ten_toDigits]
    rw [htext, Token.read_of_readOne (by decide) hone]
    · rfl
    · simp only [List.length_append]
      omega

/-! ## Numbering -/

/-- The number that a placeholder has, if a token is a placeholder. -/
def Token.number? : Token → Option (Option Nat)
  | .placeholder number => some number
  | _ => none

/-- The numbers of the placeholders among tokens, in order. -/
def Token.numbers (ts : List Token) : List (Option Nat) := ts.filterMap Token.number?

theorem Token.numbers_append (ts us : List Token) : Token.numbers (ts ++ us) = Token.numbers ts ++ Token.numbers us := by
  simp only [Token.numbers, List.filterMap_append]

theorem Token.numbers_placeholder (n : Option Nat) (ts : List Token) :
    Token.numbers (.placeholder n :: ts) = n :: Token.numbers ts := rfl

theorem Token.numbers_cons {t : Token} (ht : t.number? = none) (ts : List Token) :
    Token.numbers (t :: ts) = Token.numbers ts := List.filterMap_cons_none ht

theorem Token.numbered_cons (d : Dialect) (next : Nat) {t : Token} (ht : t.number? = none) (ts : List Token) :
    Token.numbered d next (t :: ts) = t :: Token.numbered d next ts := by
  cases t with
  | placeholder n => nomatch ht
  | _ => rfl

/-- A token with a number is a placeholder. -/
theorem Token.eq_placeholder {t : Token} {n : Option Nat} (ht : t.number? = some n) : t = .placeholder n := by
  cases t with
  | placeholder m => rw [Option.some.inj ht]
  | _ => nomatch ht

theorem Token.numbered_append (d : Dialect) (next : Nat) (ts us : List Token) :
    Token.numbered d next (ts ++ us) =
      Token.numbered d next ts ++ Token.numbered d (next + (Token.numbers ts).length) us := by
  induction ts generalizing next with
  | nil => rfl
  | cons t ts ih =>
    cases ht : t.number? with
    | none =>
      rw [List.cons_append, Token.numbered_cons d next ht, Token.numbered_cons d next ht, Token.numbers_cons ht, ih,
        List.cons_append]
    | some n =>
      obtain rfl := Token.eq_placeholder ht
      rw [List.cons_append, Token.numbered, Token.numbered, Token.numbers_placeholder, ih, List.cons_append, List.length_cons,
        Nat.add_assoc, Nat.add_comm 1]

/-- Placeholders numbered have the numbers that follow each other, or none where the dialect writes none. -/
theorem Token.numbers_numbered (d : Dialect) (next : Nat) (ts : List Token) :
    Token.numbers (Token.numbered d next ts) =
      (List.range' next (Token.numbers ts).length).map fun i => if d = .postgres then some (i + 1) else none := by
  induction ts generalizing next with
  | nil => rfl
  | cons t ts ih =>
    cases ht : t.number? with
    | none => rw [Token.numbered_cons d next ht, Token.numbers_cons ht, Token.numbers_cons ht, ih]
    | some n =>
      obtain rfl := Token.eq_placeholder ht
      rw [Token.numbered, Token.numbers_placeholder, Token.numbers_placeholder, ih, List.length_cons, List.range'_succ,
        List.map_cons]

/-! ## Pieces and tokens -/

/-- Pieces are read as tokens in a dialect: they have as many slots as the tokens have placeholders, and, whatever number comes
next and whatever text that separates comes after them, they are read as the tokens, numbered on from there, and what the
text is read as. -/
structure Piece.ReadAs (d : Dialect) (ps : List Piece) (ts : List Token) : Prop where
  slots : (Token.numbers ts).length = (Piece.parameters ps).length
  read : ∀ (next : Nat) (rest : List Char), Text.Separates rest →
    Token.read d ((Piece.spell d next ps).toList ++ rest) = (Token.read d rest).map (Token.numbered d next ts ++ ·)

theorem Piece.readAs_nil (d : Dialect) : Piece.ReadAs d [] [] := by
  refine ⟨rfl, fun next rest _ => ?_⟩
  simp [Piece.spell, Token.numbered]

theorem Piece.readAs_name {d : Dialect} (hd : d ≠ .standard) (s : String) : Piece.ReadAs d [.name s] [.name s] := by
  refine ⟨rfl, fun next rest hrest => ?_⟩
  rw [Piece.spell, Piece.spell, String.append_empty, Token.read_identifier hd s hrest]
  rfl

theorem Piece.readAs_slot {d : Dialect} (hd : d ≠ .standard) (p : Parameter) :
    Piece.ReadAs d [.slot p] [.placeholder none] := by
  refine ⟨rfl, fun next rest hrest => ?_⟩
  rw [Piece.spell, Piece.spell, String.append_empty, Token.read_placeholder hd next hrest]
  rfl

/-- An operator between pieces is read as itself between what they are read as: its spaces separate. -/
theorem Piece.ReadAs.operator {d : Dialect} {ps qs : List Piece} {ts us : List Token} (h : Piece.ReadAs d ps ts)
    (op : Operator) (h' : Piece.ReadAs d qs us) : Piece.ReadAs d (ps ++ .operator op.code :: qs) (ts ++ .operator op :: us) := by
  have hqs : Piece.parameters (.operator op.code :: qs) = Piece.parameters qs := rfl
  have hus : Token.numbers (.operator op :: us) = Token.numbers us := rfl
  refine ⟨?_, fun next rest hrest => ?_⟩
  · rw [Token.numbers_append, Piece.parameters_append, List.length_append, List.length_append, hqs, hus, h.slots, h'.slots]
  · have hsep : Text.Separates ((" " ++ op.code ++ " ").toList ++
        ((Piece.spell d (next + (Piece.parameters ps).length) qs).toList ++ rest)) := by
      simp only [String.toList_append, List.append_assoc]
      exact Text.separates_space _
    rw [Piece.spell_append, Piece.operator, Piece.spell, String.toList_append, String.toList_append, List.append_assoc,
      List.append_assoc, h.read next _ hsep, Token.read_code, h'.read _ rest hrest, Option.map_map, Option.map_map,
      Token.numbered_append, h.slots, Token.numbered_cons d _ rfl]
    simp [Function.comp_def]

/-- Pieces between parentheses are read as what they are read as, between parentheses: the closing one separates. -/
theorem Piece.ReadAs.enclosed {d : Dialect} {ps : List Piece} {ts : List Token} (h : Piece.ReadAs d ps ts) :
    Piece.ReadAs d (.text "(" :: ps ++ [.text ")"]) (.opening :: ts ++ [.closing]) := by
  have hts : Token.numbers (.opening :: ts ++ [.closing]) = Token.numbers ts :=
    (Token.numbers_append (.opening :: ts) _).trans (List.append_nil _)
  refine ⟨by rw [Piece.parameters_parentheses, hts, h.slots], fun next rest _ => ?_⟩
  have htext : (Piece.spell d next (.text "(" :: ps ++ [.text ")"])).toList ++ rest =
      '(' :: ((Piece.spell d next ps).toList ++ ')' :: rest) := by
    rw [List.cons_append, Piece.spell, Piece.spell_append]
    simp [Piece.spell]
  rw [htext, Token.read_opening, h.read next _ (Text.separates_closing rest), Token.read_closing, List.cons_append,
    Token.numbered_cons d next rfl, Token.numbered_append, Token.numbered_cons d _ rfl, Option.map_map, Option.map_map]
  simp [Function.comp_def, Token.numbered]

/-- Pieces of several parts with an operator between each and the next are read as what the parts are read as, with that operator
between. -/
theorem Piece.readAs_intercalate {d : Dialect} (op : Operator) {pss : List (List Piece)} {tss : List (List Token)}
    (h : List.Forall₂ (Piece.ReadAs d) pss tss) :
    Piece.ReadAs d ([Piece.operator op.code].intercalate pss) ([Token.operator op].intercalate tss) := by
  induction h with
  | nil => exact Piece.readAs_nil d
  | cons h hs ih =>
    cases hs with
    | nil => simpa using h
    | cons => simpa using h.operator op ih

/-! ## Conditions -/

/-- A comparison of a map's field is read as that comparison. -/
theorem FieldMap.readAs_comparison {d : Dialect} (hd : d ≠ .standard) (m : FieldMap) (comparison : Operator) (f : Field) :
    Piece.ReadAs d (m.comparison comparison f) (Token.comparison comparison f) :=
  (Piece.readAs_name hd f.name).operator comparison (Piece.readAs_slot hd _)

/-- A map is read as the comparisons of its fields that the schema declares. -/
theorem FieldMap.readAs {d : Dialect} (hd : d ≠ .standard) (s : Schema) (comparison : Operator) (m : FieldMap) :
    Piece.ReadAs d (m.pieces s comparison) (m.outline s comparison) := by
  unfold FieldMap.pieces FieldMap.outline
  apply Piece.readAs_intercalate
  rw [List.forall₂_map_left_iff, List.forall₂_map_right_iff, List.forall₂_same]
  exact fun f _ => m.readAs_comparison hd comparison f

mutual

/-- A condition without text of the caller's is read as its outline. -/
theorem Condition.readAs {d : Dialect} (hd : d ≠ .standard) (s : Schema) (comparison : Operator) : ∀ c : Condition,
    (∀ n ∈ c.nodes, n.kind ≠ .raw) → Piece.ReadAs d (c.pieces s comparison) (c.outline s comparison)
  | .expr ⟨left, op, right⟩, hraw => by
    rw [Condition.nodes] at hraw
    have hleft : ∀ n ∈ left.nodes, n.kind ≠ .raw := fun n hn => hraw n (by simp [hn])
    have hright : ∀ n ∈ right.nodes, n.kind ≠ .raw := fun n hn => hraw n (by simp [hn])
    rw [Condition.pieces, Condition.outline]
    exact (Operand.readAs hd s comparison left right.field? hleft).operator op
      (Operand.readAs hd s comparison right left.field? hright)
  | .list items op, hraw => by
    rw [Condition.nodes] at hraw
    rw [Condition.pieces, Condition.outline]
    exact Piece.readAs_intercalate op (Condition.readAs_items hd s comparison items fun n hn => hraw n (by simp [hn]))
  | .fieldMap m, _ => by
    rw [Condition.pieces, Condition.outline]
    exact m.readAs hd s comparison
  | .raw text, hraw => absurd rfl (hraw (.raw text) (by simp [Condition.nodes]))

/-- The items of a list are read as their outlines, each in its parentheses. -/
theorem Condition.readAs_items {d : Dialect} (hd : d ≠ .standard) (s : Schema) (comparison : Operator) : ∀ cs : List Condition,
    (∀ n ∈ Condition.nodesOf cs, n.kind ≠ .raw) →
      List.Forall₂ (Piece.ReadAs d) (Condition.piecesOfItems s comparison cs) (Condition.outlineItems s comparison cs)
  | [], _ => by
    rw [Condition.piecesOfItems, Condition.outlineItems]
    exact .nil
  | c :: cs, hraw => by
    rw [Condition.nodesOf] at hraw
    rw [Condition.piecesOfItems, Condition.outlineItems]
    exact .cons (Condition.readAs hd s comparison c fun n hn => hraw n (by simp [hn])).enclosed
      (Condition.readAs_items hd s comparison cs fun n hn => hraw n (by simp [hn]))

theorem Operand.readAs {d : Dialect} (hd : d ≠ .standard) (s : Schema) (comparison : Operator) :
    ∀ (o : Operand) (counterpart : Option String), (∀ n ∈ o.nodes, n.kind ≠ .raw) →
      Piece.ReadAs d (o.pieces s comparison counterpart) (o.outline s comparison)
  | .condition c, _, hraw => by
    rw [Operand.nodes] at hraw
    rw [Operand.pieces, Operand.outline]
    exact Condition.readAs hd s comparison c hraw
  | .field name, _, _ => by
    rw [Operand.pieces, Operand.outline]
    exact Piece.readAs_name hd name
  | .value v, _, _ => by
    rw [Operand.pieces, Operand.outline]
    exact Piece.readAs_slot hd _

end

/-- Pieces that read as tokens have a clause that is read to its end as those tokens, numbered from the first. -/
theorem Piece.ReadAs.read_spell {d : Dialect} {ps : List Piece} {ts : List Token} (h : Piece.ReadAs d ps ts) :
    Token.read d (Piece.spell d 0 ps).toList = some (Token.numbered d 0 ts) := by
  have := h.read 0 [] Text.separates_nil
  rw [List.append_nil, Token.read_nil] at this
  rw [this]
  simp

/-- In a dialect that quotes identifiers, the clause of a condition without text of the caller's is read to its end as the names,
operators, parentheses and placeholders met when going through the condition from left to right, whatever stands in the names. Among
them are as many placeholders as parameters are bound, and where the dialect writes numbers theirs are 1, 2 and so on. -/
theorem Condition.read_clause (c : Condition) (s : Schema) (comparison : Operator) (d : Dialect) (hd : d ≠ .standard)
    (hraw : ∀ n ∈ c.nodes, n.kind ≠ .raw) :
    Token.read d (c.clauseWith s comparison d).1.toList = some (Token.numbered d 0 (c.outline s comparison)) ∧
    Token.numbers (Token.numbered d 0 (c.outline s comparison)) =
      (List.range (c.clauseWith s comparison d).2.length).map fun i => if d = .postgres then some (i + 1) else none := by
  have h := c.readAs hd s comparison hraw
  rw [Condition.clauseWith_eq]
  refine ⟨h.read_spell, ?_⟩
  rw [Token.numbers_numbered, h.slots, List.range_eq_range']

/-- A clause with quotes, parentheses, a placeholder and the word of an operator in its names is read as what it was written from. -/
theorem Condition.read_clause_quoted :
    let c : Condition := .combine (.list [.lt "a\"b" (.int 1), .ofFields .or [("x) OR $9", .null), ("gone", .null)]] .and) .or
      (.expr ⟨.value .null, .notLike, .field "\""⟩)
    let s : Schema := .listed "t" [some ⟨"x) OR $9", .int⟩, none, some ⟨"a\"b", .int⟩]
    Token.read .postgres (c.clauseWith s .eq .postgres).1.toList =
      some [.opening, .name "a\"b", .operator .lt, .placeholder (some 1), .closing, .operator .and, .opening, .name "x) OR $9",
        .operator .eq, .placeholder (some 2), .closing, .operator .or, .placeholder (some 3), .operator .notLike, .name "\""] := by
  intro c s
  have hraw : ∀ n ∈ c.nodes, n.kind ≠ .raw := by decide
  refine (Condition.read_clause c s .eq .postgres (by decide) hraw).1.trans (congrArg some ?_)
  decide +kernel

end WhereClause
