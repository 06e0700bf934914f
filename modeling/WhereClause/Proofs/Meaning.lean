import WhereClause.Condition.Meaning
import WhereClause.Proofs.Declared
import WhereClause.Proofs.Grammar

/-!
# Meaning: the clause of a condition says what the condition says

Expressions add no parentheses of their own, so that the grouping of a condition shows in its clause only by the parentheses of
lists, by the precedence of `AND` over `OR`, and because a chain of one operator may be read in any grouping. For a condition that
is grouped so that this suffices (`Condition.isGrouped`), the clause reads as a formula that holds exactly where the condition does
(`Condition.holds_clause`).

The induction is on the condition and carries a level: a condition that exposes an `OR` is a chain by `OR`, and any other a chain by
`AND`, so that it may stand beside an `AND` as it is. The values are those of the whole clause throughout; of the part of them that
a condition's placeholders stand for, it is only known where it begins (`Parameter.BoundAt`).
-/

namespace WhereClause

/-! ## Values in their places -/

/-- The values of parameters stand in a row among values, from a place on. -/
def Parameter.BoundAt (values : List Value) (next : Nat) (params : List Parameter) : Prop :=
  params.map (·.value) <+: values.drop next

theorem Parameter.BoundAt.append {values : List Value} {next : Nat} {ps qs : List Parameter}
    (h : Parameter.BoundAt values next (ps ++ qs)) :
    Parameter.BoundAt values next ps ∧ Parameter.BoundAt values (next + ps.length) qs := by
  unfold Parameter.BoundAt at h ⊢
  rw [List.map_append] at h
  obtain ⟨rest, hrest⟩ := h
  refine ⟨⟨qs.map (·.value) ++ rest, by rw [← hrest, List.append_assoc]⟩, rest, ?_⟩
  rw [← List.drop_drop, ← hrest, List.append_assoc, List.drop_left' (by simp)]

/-- The value of a parameter is found in its place. -/
theorem Parameter.BoundAt.getElem? {values : List Value} {next : Nat} {p : Parameter}
    (h : Parameter.BoundAt values next [p]) : values[next]? = some p.value := by
  obtain ⟨rest, hrest⟩ := h
  have := congrArg List.head? hrest
  rw [List.head?_drop] at this
  exact this.symm

/-! ## Comparisons -/

/-- An operand that is no condition is written as one token, and the side that this is stands for the operand. -/
theorem Operand.exists_side {values : List Value} {next : Nat} {s : Schema} {comparison : Operator} {o : Operand}
    {counterpart : Option String} (ho : o.isCondition = false)
    (hb : Parameter.BoundAt values next (Piece.parameters (o.pieces s comparison counterpart))) :
    ∃ t a, Token.numbered .postgres next (o.outline s comparison) = [t] ∧ Formula.Side.ofToken? t = some a ∧
      a.operand values = o := by
  cases o with
  | condition c => nomatch ho
  | field name => exact ⟨.name name, .name name, by simp [Operand.outline, Token.numbered], rfl, rfl⟩
  | value v =>
    rw [Operand.pieces] at hb
    refine ⟨.placeholder (some (next + 1)), .parameter (next + 1), by simp [Operand.outline, Token.numbered], rfl, ?_⟩
    rw [Formula.Side.operand, Nat.add_sub_cancel, Parameter.BoundAt.getElem? hb]
    rfl

/-- Two sides and an operator that compares mean the comparison of what the sides stand for. -/
theorem Formula.means_comparison {values : List Value} {next : Nat} {ts us : List Token} {t u : Token} {a b : Formula.Side}
    {op : Operator} (hop : op.isComparison = true) (hts : Token.numbered .postgres next ts = [t])
    (hus : Token.numbered .postgres (next + (Token.numbers ts).length) us = [u]) (ha : Formula.Side.ofToken? t = some a)
    (hb : Formula.Side.ofToken? u = some b) :
    Formula.Means values .enclosed next (ts ++ .operator op :: us) fun truth => truth ⟨a.operand values, op, b.operand values⟩ := by
  refine ⟨.comparison a op b, ?_, fun truth => by rw [Formula.holds]⟩
  rw [Token.numbered_append, Token.numbered_cons _ _ rfl, hts, hus]
  exact .comparison ha hb hop

/-! ## Levels -/

/-- The level of what exposes an `OR`, and of what does not. -/
def Formula.Level.of (exposesOr : Bool) : Formula.Level := if exposesOr then .either else .both

/-- What either level of conditions means, it means as a chain by `OR`. -/
theorem Formula.Means.loosen {values : List Value} {exposesOr : Bool} {next : Nat} {ts : List Token}
    {meaning : (Expr → Bool) → Bool} (h : Formula.Means values (.of exposesOr) next ts meaning) :
    Formula.Means values .either next ts meaning := by
  cases exposesOr with
  | true => exact h
  | false => exact h.both

/-- Two parts joined by an operator mean what it makes of what they mean, and expose an `OR` if it is one or one of them does. An
`AND` may not stand beside an `OR` that is exposed, as it would take a part of that for its own. -/
theorem Formula.Means.join {values : List Value} {next : Nat} {ts us : List Token} {x y : Bool} {a b : (Expr → Bool) → Bool}
    (h : Formula.Means values (.of x) next ts a)
    (h' : Formula.Means values (.of y) (next + (Token.numbers ts).length) us b) {op : Operator} (hop : op.isCombinator = true)
    (hand : (op == .and && (x || y)) = false) :
    Formula.Means values (.of (op == .or || x || y)) next (ts ++ .operator op :: us) fun truth => op.join [a truth, b truth] := by
  cases op with
  | and =>
    obtain ⟨rfl, rfl⟩ : x = false ∧ y = false := by simpa using hand
    refine (Formula.Means.and h h').congr fun truth => ?_
    simp [Operator.join]
  | or =>
    refine (h.loosen.or h'.loosen).congr fun truth => ?_
    simp [Operator.join]
  | _ => nomatch hop

/-- Parts that each hang together, with an operator that joins conditions between each and the next, mean what the operator
makes of what the parts mean, and expose an `OR` only if there are two at least. -/
theorem Formula.MeanEach.join {values : List Value} {next : Nat} {tss : List (List Token)}
    {meanings : List ((Expr → Bool) → Bool)} (h : Formula.MeanEach values next tss meanings) (hne : tss ≠ []) {op : Operator}
    (hop : op.isCombinator = true) :
    Formula.Means values (.of (op == .or && decide (2 ≤ tss.length))) next ([Token.operator op].intercalate tss)
      fun truth => op.join (meanings.map (· truth)) := by
  cases op with
  | and =>
    have hand := h.all hne
    simpa [Formula.Level.of, Operator.join, Function.comp_def] using hand
  | or =>
    have hor := h.any hne
    cases h with
    | nil => exact absurd rfl hne
    | cons h hs =>
      cases hs with
      | nil => simpa [Formula.Level.of, Operator.join] using h.enclosed
      | cons => simpa [Formula.Level.of, Operator.join, Function.comp_def] using hor
  | _ => nomatch hop

/-- An operator makes the same of truths in any order. -/
theorem Operator.join_perm (op : Operator) {truths truths' : List Bool} (h : truths.Perm truths') :
    op.join truths = op.join truths' := by
  unfold Operator.join
  rw [h.any_eq, h.all_eq]

/-! ## Maps -/

/-- The comparisons of some fields of a map mean that their values are what the map wants. -/
theorem FieldMap.meanEach {values : List Value} {comparison : Operator} (hcomparison : comparison.isComparison = true)
    (m : FieldMap) : ∀ (fs : List Field) {next : Nat},
      Parameter.BoundAt values next (fs.map fun f => ⟨some f, (m.fields.get? f.name).getD .null⟩) →
      Formula.MeanEach values next (fs.map (Token.comparison comparison))
        (fs.map fun f truth => truth ⟨.field f.name, comparison, .value ((m.fields.get? f.name).getD .null)⟩)
  | [], _, _ => .nil
  | f :: fs, next, hb => by
    rw [List.map_cons, ← List.singleton_append] at hb
    obtain ⟨hf, hfs⟩ := hb.append
    refine .cons ?_ (FieldMap.meanEach hcomparison m fs hfs)
    have hplaceholder : Formula.Side.ofToken? (.placeholder (some (next + 1))) = some (.parameter (next + 1)) := rfl
    have hcomparison : Formula.Means values .enclosed next ([.name f.name] ++ .operator comparison :: [.placeholder none]) _ :=
      Formula.means_comparison hcomparison rfl rfl rfl hplaceholder
    simpa [Formula.Side.operand, hf.getElem?, Token.comparison] using hcomparison

/-- What the operator of a map makes of its fields as the schema orders them, it makes of them as the map does. -/
theorem FieldMap.join_selected {s : EntitySchema} {m : FieldMap} (hv : m.check (.entity s) = .ok ())
    (truth : String → Value → Bool) :
    m.operator.join ((m.selected (.entity s)).map fun f => truth f.name ((m.fields.get? f.name).getD .null)) =
      m.operator.join (m.fields.entries.map fun e => truth e.1 e.2) := by
  have hperm := (FieldMap.selected_perm_entries hv).map fun e => truth e.1 e.2
  rw [List.map_map] at hperm
  exact Operator.join_perm _ hperm

/-- The clause of a map of which the schema declares every field means what the map means: the fields are in another order, and each
has its value. -/
theorem FieldMap.means {values : List Value} {s : EntitySchema} {comparison : Operator}
    (hcomparison : comparison.isComparison = true) {m : FieldMap} {next : Nat} (hv : m.check (.entity s) = .ok ())
    (hop : m.operator.isCombinator = true) (hne : 0 < m.fields.size)
    (hb : Parameter.BoundAt values next (Piece.parameters (m.pieces (.entity s) comparison))) :
    Formula.Means values (.of (m.operator == .or && decide (2 ≤ m.fields.size))) next (m.outline (.entity s) comparison)
      fun truth => m.operator.join (m.fields.entries.map fun e => truth ⟨.field e.1, comparison, .value e.2⟩) := by
  have hlength : (m.selected (.entity s)).length = m.fields.size := by
    have := (FieldMap.names_selected_perm hv).length_eq
    rwa [List.length_map, Bindings.names, List.length_map] at this
  rw [FieldMap.parameters_pieces] at hb
  have h := (m.meanEach hcomparison _ hb).join (List.ne_nil_of_length_pos (by rw [List.length_map, hlength]; exact hne)) hop
  rw [List.length_map, hlength] at h
  refine h.congr fun truth => ?_
  rw [List.map_map]
  exact FieldMap.join_selected hv fun name value => truth ⟨.field name, comparison, .value value⟩

/-! ## Conditions -/

/-- An operand that is no condition has none in it. -/
theorem Operand.kind_ne_raw_of_isCondition_eq_false {o : Operand} (ho : o.isCondition = false) :
    ∀ n ∈ o.nodes, n.kind ≠ .raw := by
  cases o with
  | condition c => nomatch ho
  | field name => exact nofun
  | value v => exact nofun

theorem Condition.outlineItems_eq_map (s : Schema) (comparison : Operator) (cs : List Condition) :
    Condition.outlineItems s comparison cs = cs.map fun c => .opening :: c.outline s comparison ++ [.closing] := by
  induction cs with
  | nil => rw [Condition.outlineItems, List.map_nil]
  | cons c cs ih => rw [Condition.outlineItems, List.map_cons, ih]

theorem Condition.holdEach_eq_map (truth : Expr → Bool) (comparison : Operator) (cs : List Condition) :
    Condition.holdEach truth comparison cs = cs.map (·.holds truth comparison) := by
  induction cs with
  | nil => rw [Condition.holdEach, List.map_nil]
  | cons c cs ih => rw [Condition.holdEach, List.map_cons, ih]

mutual

/-- A grouped condition has no text of the caller's in it. -/
theorem Condition.kind_ne_raw_of_isGrouped : ∀ c : Condition, c.isGrouped = true → ∀ n ∈ c.nodes, n.kind ≠ .raw
  | .expr ⟨left, op, right⟩, hg => by
    have hsides : (∀ n ∈ left.nodes, n.kind ≠ .raw) ∧ ∀ n ∈ right.nodes, n.kind ≠ .raw := by
      rw [Condition.isGrouped] at hg
      split at hg
      · rename_i hleaf
        simp only [Expr.isLeaf, Bool.and_eq_true, Bool.not_eq_true'] at hleaf
        exact ⟨Operand.kind_ne_raw_of_isCondition_eq_false hleaf.1, Operand.kind_ne_raw_of_isCondition_eq_false hleaf.2⟩
      · simp only [Bool.and_eq_true] at hg
        exact ⟨Operand.kind_ne_raw_of_isGrouped left hg.1.1.2, Operand.kind_ne_raw_of_isGrouped right hg.1.2⟩
    intro n hn
    rw [Condition.nodes, List.mem_cons, List.mem_append] at hn
    rcases hn with rfl | hn | hn
    · exact nofun
    · exact hsides.1 n hn
    · exact hsides.2 n hn
  | .list items op, hg => by
    rw [Condition.isGrouped, Bool.and_eq_true] at hg
    intro n hn
    rw [Condition.nodes, List.mem_cons] at hn
    rcases hn with rfl | hn
    · exact nofun
    · exact Condition.kind_ne_raw_of_areGrouped items hg.2 n hn
  | .fieldMap m, _ => by
    intro n hn
    rw [Condition.nodes, List.mem_singleton] at hn
    subst hn
    exact nofun
  | .raw text, hg => nomatch hg

theorem Condition.kind_ne_raw_of_areGrouped : ∀ cs : List Condition, Condition.areGrouped cs = true →
    ∀ n ∈ Condition.nodesOf cs, n.kind ≠ .raw
  | [], _ => nofun
  | c :: cs, hg => by
    rw [Condition.areGrouped, Bool.and_eq_true] at hg
    intro n hn
    rw [Condition.nodesOf, List.mem_append] at hn
    rcases hn with hn | hn
    · exact Condition.kind_ne_raw_of_isGrouped c hg.1 n hn
    · exact Condition.kind_ne_raw_of_areGrouped cs hg.2 n hn

theorem Operand.kind_ne_raw_of_isGrouped : ∀ o : Operand, o.isGrouped = true → ∀ n ∈ o.nodes, n.kind ≠ .raw
  | .condition c, hg => by
    rw [Operand.isGrouped] at hg
    rw [Operand.nodes]
    exact Condition.kind_ne_raw_of_isGrouped c hg
  | .field _, hg => nomatch hg
  | .value _, hg => nomatch hg

end

mutual

/-- The clause of a grouped condition that is accepted means what the condition means, as a chain by `OR` if it exposes one and
else as a chain by `AND`. -/
theorem Condition.means {values : List Value} {s : EntitySchema} {comparison : Operator}
    (hcomparison : comparison.isComparison = true) : ∀ (c : Condition) {next : Nat}, c.check (.entity s) = .ok () →
      c.isGrouped = true → Parameter.BoundAt values next (Piece.parameters (c.pieces (.entity s) comparison)) →
      Formula.Means values (.of c.exposesOr) next (c.outline (.entity s) comparison) fun truth => c.holds truth comparison
  | .expr ⟨left, op, right⟩, next, hv, hg, hb => by
    rw [Condition.check, seq_eq_ok_iff] at hv
    rw [Condition.pieces, Piece.parameters_append] at hb
    obtain ⟨hbl, hbr⟩ := hb.append
    have hnext : (∀ n ∈ left.nodes, n.kind ≠ .raw) → Parameter.BoundAt values
        (next + (Token.numbers (left.outline (.entity s) comparison)).length)
        (Piece.parameters (right.pieces (.entity s) comparison left.field?)) := by
      intro hraw
      rw [(Operand.readAs (d := .postgres) (by decide) (.entity s) comparison left right.field? hraw).slots]
      exact hbr
    by_cases hleaf : (Expr.mk left op right).isLeaf = true
    · rw [Condition.isGrouped, if_pos hleaf] at hg
      have hsides := hleaf
      simp only [Expr.isLeaf, Bool.and_eq_true, Bool.not_eq_true'] at hsides
      obtain ⟨t, a, ht, hta, ha⟩ := Operand.exists_side hsides.1 hbl
      obtain ⟨u, b, hu, hub, hb⟩ :=
        Operand.exists_side hsides.2 (hnext (Operand.kind_ne_raw_of_isCondition_eq_false hsides.1))
      rw [Condition.exposesOr, if_pos hleaf, Condition.outline]
      refine (Formula.means_comparison hg ht hu hta hub).enclosed.congr fun truth => ?_
      rw [Condition.holds, if_pos hleaf, ha, hb]
    · rw [Condition.isGrouped, if_neg hleaf] at hg
      simp only [Bool.and_eq_true, Bool.not_eq_true'] at hg
      obtain ⟨⟨⟨hop, hgl⟩, hgr⟩, hand⟩ := hg
      have hl := Operand.means hcomparison left right.field? hv.1 hgl hbl
      have hr := Operand.means hcomparison right left.field? hv.2 hgr (hnext (Operand.kind_ne_raw_of_isGrouped left hgl))
      rw [Condition.exposesOr, if_neg hleaf, Condition.outline]
      refine (hl.join hr hop hand).congr fun truth => ?_
      rw [Condition.holds, if_neg hleaf]
  | .list items op, next, hv, hg, hb => by
    rw [Condition.isGrouped, Bool.and_eq_true, Bool.and_eq_true] at hg
    obtain ⟨⟨hop, hne⟩, hgs⟩ := hg
    rw [Condition.pieces, Piece.operator, Piece.parameters_intercalate] at hb
    have h := Condition.meanEach hcomparison items hv hgs hb
    have hlength : (Condition.outlineItems (.entity s) comparison items).length = items.length := by
      rw [Condition.outlineItems_eq_map, List.length_map]
    have hne' : Condition.outlineItems (.entity s) comparison items ≠ [] := by
      intro h
      rw [h] at hlength
      rw [List.eq_nil_of_length_eq_zero hlength.symm] at hne
      nomatch hne
    rw [Condition.exposesOr, Condition.outline, ← hlength]
    refine (h.join hne' hop).congr fun truth => ?_
    rw [Condition.holds, Condition.holdEach_eq_map, List.map_map]
    rfl
  | .fieldMap m, next, hv, hg, hb => by
    rw [Condition.isGrouped, Bool.and_eq_true, decide_eq_true_eq] at hg
    rw [Condition.check] at hv
    rw [Condition.pieces] at hb
    rw [Condition.exposesOr, Condition.outline]
    refine (FieldMap.means hcomparison hv hg.1 hg.2 hb).congr fun truth => ?_
    rw [Condition.holds]
  | .raw text, _, _, hg, _ => nomatch hg

/-- The items of a list of grouped conditions that are accepted mean what the conditions mean, each in its parentheses. -/
theorem Condition.meanEach {values : List Value} {s : EntitySchema} {comparison : Operator}
    (hcomparison : comparison.isComparison = true) : ∀ (cs : List Condition) {next : Nat},
      Condition.checkItems (.entity s) cs = .ok () → Condition.areGrouped cs = true →
      Parameter.BoundAt values next ((Condition.piecesOfItems (.entity s) comparison cs).flatMap Piece.parameters) →
      Formula.MeanEach values next (Condition.outlineItems (.entity s) comparison cs)
        (cs.map fun c truth => c.holds truth comparison)
  | [], _, _, _, _ => by
    rw [Condition.outlineItems]
    exact .nil
  | c :: cs, next, hv, hg, hb => by
    rw [Condition.checkItems, seq_eq_ok_iff] at hv
    rw [Condition.areGrouped, Bool.and_eq_true] at hg
    rw [Condition.piecesOfItems, List.flatMap_cons] at hb
    obtain ⟨hbc, hbcs⟩ := hb.append
    rw [Piece.parameters_parentheses] at hbc
    have hslots := (Condition.readAs (d := .postgres) (by decide) (.entity s) comparison c
      (Condition.kind_ne_raw_of_isGrouped c hg.1)).enclosed.slots
    rw [Condition.outlineItems]
    refine .cons (Condition.means hcomparison c hv.1 hg.1 hbc).loosen.parentheses ?_
    rw [hslots]
    exact Condition.meanEach hcomparison cs hv.2 hg.2 hbcs

theorem Operand.means {values : List Value} {s : EntitySchema} {comparison : Operator}
    (hcomparison : comparison.isComparison = true) : ∀ (o : Operand) (counterpart : Option String) {next : Nat},
      o.check (.entity s) = .ok () → o.isGrouped = true →
      Parameter.BoundAt values next (Piece.parameters (o.pieces (.entity s) comparison counterpart)) →
      Formula.Means values (.of o.exposesOr) next (o.outline (.entity s) comparison) fun truth => o.holds truth comparison
  | .condition c, _, next, hv, hg, hb => by
    rw [Operand.check] at hv
    rw [Operand.isGrouped] at hg
    rw [Operand.pieces] at hb
    rw [Operand.exposesOr, Operand.outline]
    refine (Condition.means hcomparison c hv hg hb).congr fun truth => ?_
    rw [Operand.holds]
  | .field _, _, _, _, hg, _ => nomatch hg
  | .value _, _, _, _, hg, _ => nomatch hg

end

/-! ## Clauses -/

/-- Placeholders that a dialect numbers as it does, given the numbers of their places where it writes none, are numbered as in
PostgreSQL. -/
theorem Token.placed_numbered (d : Dialect) (next : Nat) (ts : List Token) :
    Token.placed next (Token.numbered d next ts) = Token.numbered .postgres next ts := by
  induction ts generalizing next with
  | nil => rfl
  | cons t ts ih =>
    cases t with
    | placeholder n =>
      rw [Token.numbered, Token.numbered, if_pos rfl, ← ih (next + 1)]
      cases d <;> rfl
    | name s => exact congrArg (Token.name s :: ·) (ih next)
    | opening => exact congrArg (Token.opening :: ·) (ih next)
    | closing => exact congrArg (Token.closing :: ·) (ih next)
    | operator op => exact congrArg (Token.operator op :: ·) (ih next)

/-- In a dialect that quotes identifiers, the clause of a grouped condition that the schema of an entity accepts is read to its end,
as tokens that say a formula in which comparisons bind tighter than `AND` and `AND` tighter than `OR`. With each placeholder
standing for the value of its parameter, that formula holds exactly where the condition does, whichever comparisons between fields
and values are true. -/
theorem Condition.holds_clause (c : Condition) (s : EntitySchema) (comparison : Operator) (d : Dialect) (hd : d ≠ .standard)
    (hcomparison : comparison.isComparison = true) (hv : c.validate (.entity s) = .ok ()) (hg : c.isGrouped = true) :
    ∃ tokens f, Token.read d (c.clauseWith (.entity s) comparison d).1.toList = some tokens ∧
      Formula.Says .either (Token.placed 0 tokens) f ∧
      Formula.ofClause? d (c.clauseWith (.entity s) comparison d).1 = some f ∧
      ∀ truth : Expr → Bool,
        f.holds truth ((c.clauseWith (.entity s) comparison d).2.map (·.value)) = c.holds truth comparison := by
  rw [Condition.validate_eq_check] at hv
  rw [Condition.clauseWith_eq]
  have hread := (c.readAs hd (.entity s) comparison (c.kind_ne_raw_of_isGrouped hg)).read_spell
  have hb : Parameter.BoundAt ((Piece.parameters (c.pieces (.entity s) comparison)).map (·.value)) 0
      (Piece.parameters (c.pieces (.entity s) comparison)) := List.prefix_refl _
  obtain ⟨f, hf, hholds⟩ := (c.means hcomparison hv hg hb).loosen
  rw [← Token.placed_numbered d] at hf
  refine ⟨_, f, hread, hf, ?_, hholds⟩
  rw [Formula.ofClause?, hread]
  exact Formula.ofTokens?_of_says hf

/-- Nested expressions, lists, maps in another order than the schema's and a value on the left: the clause says what they say. -/
theorem Condition.holds_clause_nested :
    ∃ s, EntitySchema.ofFields "person" [⟨"status", .char⟩, ⟨"name", .varChar⟩, ⟨"id", .long⟩] = .ok s ∧
      let c : Condition := .combine
        (.combine (.lt "id" (.int 9)) .and
          (.list [.ofFields .or [("name", .null), ("status", .boolean true)], .expr ⟨.value .null, .like, .field "name"⟩] .and))
        .or (.ofFields .or [("name", .boolean false), ("status", .boolean true)])
      c.validate (.entity s) = .ok () ∧ c.isGrouped = true ∧
      ∃ tokens f, Token.read .mysql (c.clauseWith (.entity s) .eq .mysql).1.toList = some tokens ∧
        Formula.Says .either (Token.placed 0 tokens) f ∧
        Formula.ofClause? .mysql (c.clauseWith (.entity s) .eq .mysql).1 = some f ∧
        ∀ truth : Expr → Bool,
          f.holds truth ((c.clauseWith (.entity s) .eq .mysql).2.map (·.value)) = c.holds truth .eq := by
  refine ⟨_, rfl, ?_⟩
  intro c
  have hg : c.isGrouped = true := by decide
  exact ⟨rfl, hg, Condition.holds_clause c _ .eq .mysql (by decide) rfl rfl hg⟩

end WhereClause
