import WhereClause.Clause.Formula
import WhereClause.Proofs.Reading

/-!
# Grammar: which tokens say which formula

Tokens say a formula at one of three levels (`Formula.Says`): a comparison or a formula in parentheses, a chain of these joined
by `AND`, and a chain of those joined by `OR`. Whatever tokens say, the reader of formulas reads (`Formula.ofTokens?_of_says`).

The grammar reads a chain from the right, and a condition may be grouped in any way. So what tokens mean is said of the truth of
the formula and not of the formula itself (`Formula.Means`): two chains of one operator joined by it mean what joining their
meanings comes to, however the joined chain is then read.
-/

namespace WhereClause

/-- How loosely the parts of a formula hang together: not at all, by `AND` at most, by `OR` at most. -/
inductive Formula.Level where
  | enclosed | both | either

/-- Tokens say a formula at a level. -/
inductive Formula.Says : Formula.Level → List Token → Formula → Prop where
  /-- Two sides and the operator between them. -/
  | comparison {left right : Token} {a b : Formula.Side} {op : Operator} (ha : Formula.Side.ofToken? left = some a)
      (hb : Formula.Side.ofToken? right = some b) (hop : op.isComparison = true) :
      Formula.Says .enclosed [left, .operator op, right] (.comparison a op b)
  /-- A formula of any level, in parentheses. -/
  | parentheses {ts : List Token} {f : Formula} (h : Formula.Says .either ts f) :
      Formula.Says .enclosed (.opening :: ts ++ [.closing]) f
  /-- A chain by `AND` of one part. -/
  | enclosed {ts : List Token} {f : Formula} (h : Formula.Says .enclosed ts f) : Formula.Says .both ts f
  /-- One part more in front of a chain by `AND`. -/
  | and {ts us : List Token} {f g : Formula} (h : Formula.Says .enclosed ts f) (h' : Formula.Says .both us g) :
      Formula.Says .both (ts ++ .operator .and :: us) (.both f g)
  /-- A chain by `OR` of one part. -/
  | both {ts : List Token} {f : Formula} (h : Formula.Says .both ts f) : Formula.Says .either ts f
  /-- One part more in front of a chain by `OR`. -/
  | or {ts us : List Token} {f g : Formula} (h : Formula.Says .both ts f) (h' : Formula.Says .either us g) :
      Formula.Says .either (ts ++ .operator .or :: us) (.either f g)

/-! ## Reading what is said -/

/-- The reader of the formulas of a level. -/
def Formula.readAt : Formula.Level → Nat → List Token → Option (Formula × List Token)
  | .enclosed => Formula.readEnclosed
  | .both => Formula.readBoth
  | .either => Formula.readEither

/-- The steps that the reader of a level takes without taking a token. -/
def Formula.Level.steps : Formula.Level → Nat
  | .enclosed => 1
  | .both => 2
  | .either => 3

/-- Tokens that cannot go on with a formula of a level before them. -/
def Formula.Level.Ends (level : Formula.Level) (rest : List Token) : Prop :=
  match level with
  | .enclosed => True
  | .both => rest.head? ≠ some (.operator .and)
  | .either => rest.head? ≠ some (.operator .and) ∧ rest.head? ≠ some (.operator .or)

/-- A chain by `AND` ends where no `AND` follows. -/
theorem Formula.readBoth_of_ends {fuel : Nat} {ts rest : List Token} {f : Formula}
    (h : Formula.readEnclosed fuel ts = some (f, rest)) (hrest : Formula.Level.both.Ends rest) :
    Formula.readBoth (fuel + 1) ts = some (f, rest) := by
  rw [Formula.readBoth, h]
  simp only [Option.bind_eq_bind, Option.bind_some]
  split
  · exact absurd rfl hrest
  · rfl

/-- A chain by `AND` goes on where one follows. -/
theorem Formula.readBoth_and {fuel : Nat} {ts us rest : List Token} {f g : Formula}
    (h : Formula.readEnclosed fuel ts = some (f, .operator .and :: us)) (h' : Formula.readBoth fuel us = some (g, rest)) :
    Formula.readBoth (fuel + 1) ts = some (.both f g, rest) := by
  rw [Formula.readBoth, h]
  simp only [Option.bind_eq_bind, Option.bind_some, h']
  rfl

/-- A chain by `OR` ends where no `OR` follows. -/
theorem Formula.readEither_of_ends {fuel : Nat} {ts rest : List Token} {f : Formula}
    (h : Formula.readBoth fuel ts = some (f, rest)) (hrest : Formula.Level.either.Ends rest) :
    Formula.readEither (fuel + 1) ts = some (f, rest) := by
  rw [Formula.readEither, h]
  simp only [Option.bind_eq_bind, Option.bind_some]
  split
  · exact absurd rfl hrest.2
  · rfl

/-- A chain by `OR` goes on where one follows. -/
theorem Formula.readEither_or {fuel : Nat} {ts us rest : List Token} {f g : Formula}
    (h : Formula.readBoth fuel ts = some (f, .operator .or :: us)) (h' : Formula.readEither fuel us = some (g, rest)) :
    Formula.readEither (fuel + 1) ts = some (.either f g, rest) := by
  rw [Formula.readEither, h]
  simp only [Option.bind_eq_bind, Option.bind_some, h']
  rfl

/-- A formula in parentheses is read to the closing one. -/
theorem Formula.readEnclosed_parentheses {fuel : Nat} {ts rest : List Token} {f : Formula}
    (h : Formula.readEither fuel ts = some (f, .closing :: rest)) :
    Formula.readEnclosed (fuel + 1) (.opening :: ts) = some (f, rest) := by
  rw [Formula.readEnclosed, h]
  rfl

/-- A comparison is read as such. -/
theorem Formula.readEnclosed_comparison {fuel : Nat} {left right : Token} {a b : Formula.Side} {op : Operator}
    (ha : Formula.Side.ofToken? left = some a) (hb : Formula.Side.ofToken? right = some b) (hop : op.isComparison = true)
    (rest : List Token) :
    Formula.readEnclosed (fuel + 1) (left :: .operator op :: right :: rest) = some (.comparison a op b, rest) := by
  rw [Formula.readEnclosed]
  · simp [Formula.readComparison, ha, hb, hop]
  · intro ts h
    obtain rfl := (List.cons.inj h).1
    nomatch ha

/-- What tokens say at a level its reader reads, if nothing follows that goes on with it and the fuel is three times the number of
the tokens, and what the level itself takes. -/
theorem Formula.Says.read {level : Formula.Level} {ts : List Token} {f : Formula} (h : Formula.Says level ts f) :
    ∀ (fuel : Nat) (rest : List Token), 3 * ts.length + level.steps ≤ fuel → level.Ends rest →
      Formula.readAt level fuel (ts ++ rest) = some (f, rest) := by
  induction h with
  | comparison ha hb hop =>
    intro fuel rest hfuel _
    obtain ⟨fuel, rfl⟩ : ∃ n, fuel = n + 1 := ⟨fuel - 1, by simp only [Formula.Level.steps] at hfuel; omega⟩
    exact Formula.readEnclosed_comparison ha hb hop rest
  | parentheses h ih =>
    intro fuel rest hfuel _
    simp only [List.length_append, List.length_cons, List.length_nil, Formula.Level.steps] at hfuel ih
    obtain ⟨fuel, rfl⟩ : ∃ n, fuel = n + 1 := ⟨fuel - 1, by omega⟩
    rw [List.cons_append, List.cons_append, List.append_assoc]
    exact Formula.readEnclosed_parentheses (ih fuel (.closing :: rest) (by omega) ⟨nofun, nofun⟩)
  | enclosed h ih =>
    intro fuel rest hfuel hrest
    simp only [Formula.Level.steps] at hfuel ih
    obtain ⟨fuel, rfl⟩ : ∃ n, fuel = n + 1 := ⟨fuel - 1, by omega⟩
    exact Formula.readBoth_of_ends (ih fuel rest (by omega) trivial) hrest
  | and h h' ih ih' =>
    intro fuel rest hfuel hrest
    simp only [List.length_append, List.length_cons, Formula.Level.steps] at hfuel ih ih'
    obtain ⟨fuel, rfl⟩ : ∃ n, fuel = n + 1 := ⟨fuel - 1, by omega⟩
    rw [List.append_assoc, List.cons_append]
    exact Formula.readBoth_and (ih fuel _ (by omega) trivial) (ih' fuel rest (by omega) hrest)
  | both h ih =>
    intro fuel rest hfuel hrest
    simp only [Formula.Level.steps] at hfuel ih
    obtain ⟨fuel, rfl⟩ : ∃ n, fuel = n + 1 := ⟨fuel - 1, by omega⟩
    exact Formula.readEither_of_ends (ih fuel rest (by omega) hrest.1) hrest
  | or h h' ih ih' =>
    intro fuel rest hfuel hrest
    simp only [List.length_append, List.length_cons, Formula.Level.steps] at hfuel ih ih'
    obtain ⟨fuel, rfl⟩ : ∃ n, fuel = n + 1 := ⟨fuel - 1, by omega⟩
    rw [List.append_assoc, List.cons_append]
    exact Formula.readEither_or (ih fuel _ (by omega) nofun) (ih' fuel rest (by omega) hrest)

/-- What tokens say they are read as, from the first to the last. -/
theorem Formula.ofTokens?_of_says {ts : List Token} {f : Formula} (h : Formula.Says .either ts f) :
    Formula.ofTokens? ts = some f := by
  have hread : Formula.readEither (3 * ts.length + 3) (ts ++ []) = some (f, []) :=
    h.read (3 * ts.length + 3) [] (Nat.le_refl _) ⟨nofun, nofun⟩
  rw [List.append_nil] at hread
  rw [Formula.ofTokens?, hread]

/-! ## Chains joined -/

/-- Two chains by `AND` joined by `AND` say a formula that holds where both of theirs do. -/
theorem Formula.Says.both_append {ts us : List Token} {f g : Formula} (h : Formula.Says .both ts f)
    (h' : Formula.Says .both us g) :
    ∃ k, Formula.Says .both (ts ++ .operator .and :: us) k ∧
      ∀ truth values, k.holds truth values = (f.holds truth values && g.holds truth values) := by
  generalize hl : Formula.Level.both = level at h
  induction h with
  | comparison => nomatch hl
  | parentheses => nomatch hl
  | enclosed h => exact ⟨_, .and h h', fun _ _ => rfl⟩
  | and h _ _ ih =>
    obtain ⟨k, hk, hholds⟩ := ih hl
    rw [List.append_assoc, List.cons_append]
    refine ⟨_, .and h hk, fun truth values => ?_⟩
    rw [Formula.holds, Formula.holds, hholds, Bool.and_assoc]
  | both => nomatch hl
  | or => nomatch hl

/-- Two chains by `OR` joined by `OR` say a formula that holds where one of theirs does. -/
theorem Formula.Says.either_append {ts us : List Token} {f g : Formula} (h : Formula.Says .either ts f)
    (h' : Formula.Says .either us g) :
    ∃ k, Formula.Says .either (ts ++ .operator .or :: us) k ∧
      ∀ truth values, k.holds truth values = (f.holds truth values || g.holds truth values) := by
  generalize hl : Formula.Level.either = level at h
  induction h with
  | comparison => nomatch hl
  | parentheses => nomatch hl
  | enclosed => nomatch hl
  | and => nomatch hl
  | both h => exact ⟨_, .or h h', fun _ _ => rfl⟩
  | or h _ _ ih =>
    obtain ⟨k, hk, hholds⟩ := ih hl
    rw [List.append_assoc, List.cons_append]
    refine ⟨_, .or h hk, fun truth values => ?_⟩
    rw [Formula.holds, Formula.holds, hholds, Bool.or_assoc]

/-! ## What tokens mean -/

/-- Tokens mean a truth at a level, given the values of the parameters: with their placeholders numbered on from `next`, they say
a formula that holds exactly where it does. -/
def Formula.Means (values : List Value) (level : Formula.Level) (next : Nat) (ts : List Token)
    (meaning : (Expr → Bool) → Bool) : Prop :=
  ∃ f, Formula.Says level (Token.numbered .postgres next ts) f ∧ ∀ truth, f.holds truth values = meaning truth

theorem Formula.Means.congr {values : List Value} {level : Formula.Level} {next : Nat} {ts : List Token}
    {a b : (Expr → Bool) → Bool} (h : Formula.Means values level next ts a) (hab : ∀ truth, a truth = b truth) :
    Formula.Means values level next ts b := by
  obtain ⟨f, hf, hholds⟩ := h
  exact ⟨f, hf, fun truth => (hholds truth).trans (hab truth)⟩

/-- In parentheses tokens mean what they mean, and hang together. -/
theorem Formula.Means.parentheses {values : List Value} {next : Nat} {ts : List Token} {meaning : (Expr → Bool) → Bool}
    (h : Formula.Means values .either next ts meaning) :
    Formula.Means values .enclosed next (.opening :: ts ++ [.closing]) meaning := by
  obtain ⟨f, hf, hholds⟩ := h
  refine ⟨f, ?_, hholds⟩
  rw [List.cons_append, Token.numbered_cons _ _ rfl, Token.numbered_append]
  exact .parentheses hf

/-- What hangs together is a chain by `AND`. -/
theorem Formula.Means.enclosed {values : List Value} {next : Nat} {ts : List Token} {meaning : (Expr → Bool) → Bool}
    (h : Formula.Means values .enclosed next ts meaning) : Formula.Means values .both next ts meaning := by
  obtain ⟨f, hf, hholds⟩ := h
  exact ⟨f, .enclosed hf, hholds⟩

/-- A chain by `AND` is a chain by `OR`. -/
theorem Formula.Means.both {values : List Value} {next : Nat} {ts : List Token} {meaning : (Expr → Bool) → Bool}
    (h : Formula.Means values .both next ts meaning) : Formula.Means values .either next ts meaning := by
  obtain ⟨f, hf, hholds⟩ := h
  exact ⟨f, .both hf, hholds⟩

/-- Chains by `AND` joined by `AND` mean that both hold. -/
theorem Formula.Means.and {values : List Value} {next : Nat} {ts us : List Token} {a b : (Expr → Bool) → Bool}
    (h : Formula.Means values .both next ts a) (h' : Formula.Means values .both (next + (Token.numbers ts).length) us b) :
    Formula.Means values .both next (ts ++ .operator .and :: us) fun truth => a truth && b truth := by
  obtain ⟨f, hf, hfa⟩ := h
  obtain ⟨g, hg, hgb⟩ := h'
  obtain ⟨k, hk, hholds⟩ := hf.both_append hg
  refine ⟨k, ?_, fun truth => ?_⟩
  · rw [Token.numbered_append, Token.numbered_cons _ _ rfl]
    exact hk
  · rw [hholds, hfa, hgb]

/-- Chains by `OR` joined by `OR` mean that one holds. -/
theorem Formula.Means.or {values : List Value} {next : Nat} {ts us : List Token} {a b : (Expr → Bool) → Bool}
    (h : Formula.Means values .either next ts a) (h' : Formula.Means values .either (next + (Token.numbers ts).length) us b) :
    Formula.Means values .either next (ts ++ .operator .or :: us) fun truth => a truth || b truth := by
  obtain ⟨f, hf, hfa⟩ := h
  obtain ⟨g, hg, hgb⟩ := h'
  obtain ⟨k, hk, hholds⟩ := hf.either_append hg
  refine ⟨k, ?_, fun truth => ?_⟩
  · rw [Token.numbered_append, Token.numbered_cons _ _ rfl]
    exact hk
  · rw [hholds, hfa, hgb]

/-- Parts that each hang together mean truths, one each, the placeholders numbered on from one part to the next. -/
inductive Formula.MeanEach (values : List Value) : Nat → List (List Token) → List ((Expr → Bool) → Bool) → Prop where
  | nil {next : Nat} : Formula.MeanEach values next [] []
  | cons {next : Nat} {ts : List Token} {tss : List (List Token)} {a : (Expr → Bool) → Bool}
      {meanings : List ((Expr → Bool) → Bool)} (h : Formula.Means values .enclosed next ts a)
      (hs : Formula.MeanEach values (next + (Token.numbers ts).length) tss meanings) :
      Formula.MeanEach values next (ts :: tss) (a :: meanings)

/-- Parts with `AND` between each and the next mean that all hold. -/
theorem Formula.MeanEach.all {values : List Value} {next : Nat} {tss : List (List Token)}
    {meanings : List ((Expr → Bool) → Bool)} (h : Formula.MeanEach values next tss meanings) (hne : tss ≠ []) :
    Formula.Means values .both next ([Token.operator .and].intercalate tss) fun truth => meanings.all (· truth) := by
  induction h with
  | nil => exact absurd rfl hne
  | cons h hs ih =>
    cases hs with
    | nil => simpa using h.enclosed
    | cons => simpa using h.enclosed.and (ih (List.cons_ne_nil _ _))

/-- Parts with `OR` between each and the next mean that one holds. -/
theorem Formula.MeanEach.any {values : List Value} {next : Nat} {tss : List (List Token)}
    {meanings : List ((Expr → Bool) → Bool)} (h : Formula.MeanEach values next tss meanings) (hne : tss ≠ []) :
    Formula.Means values .either next ([Token.operator .or].intercalate tss) fun truth => meanings.any (· truth) := by
  induction h with
  | nil => exact absurd rfl hne
  | cons h hs ih =>
    cases hs with
    | nil => simpa using h.enclosed.both
    | cons => simpa using h.enclosed.both.or (ih (List.cons_ne_nil _ _))

end WhereClause
