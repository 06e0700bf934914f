import Mathlib.Algebra.Order.Group.Multiset
import Mathlib.Tactic.Abel
import WhereClause.Proofs.Acceptance
import WhereClause.Proofs.Visit

/-!
# Conservation: no value is lost and none is bound twice

Against the schema of an entity, the clause of an accepted condition binds each of the condition's values once: those of its
leaves, among which the entries of maps are counted, and those beside a nested condition, which no leaf has
(`Condition.bound_pieces`). Only the order is another, since the entries of a map are bound in the order of the schema, and so
the values are compared as multisets.
-/

namespace WhereClause

/-! ## Multisets of values -/

/-- The values that are bound in pieces. -/
def Piece.bound (ps : List Piece) : Multiset Value := ((Piece.parameters ps).map (·.value) : List Value)

/-- The values that are sides of expressions. -/
def Expr.held (es : List Expr) : Multiset Value := (es.flatMap Expr.values : List Value)

/-- The values of a condition that stand beside a condition nested in it. -/
def Condition.ownBeside : Condition → List Value
  | .expr e => if e.isLeaf then [] else e.values
  | _ => []

/-- The values that stand beside a condition nested in a node. -/
def Condition.beside (nodes : List Condition) : Multiset Value := (nodes.flatMap Condition.ownBeside : List Value)

theorem Piece.bound_append (ps qs : List Piece) : Piece.bound (ps ++ qs) = Piece.bound ps + Piece.bound qs := by
  unfold Piece.bound
  rw [Piece.parameters_append, List.map_append, Multiset.coe_add]

theorem Piece.bound_parentheses (ps : List Piece) : Piece.bound (.text "(" :: ps ++ [.text ")"]) = Piece.bound ps := by
  unfold Piece.bound
  rw [Piece.parameters_parentheses]

/-- The values bound in lists of pieces with a piece of text between them are those of the lists. -/
theorem Piece.bound_intercalate (label : String) (pss : List (List Piece)) :
    Piece.bound ([Piece.text label].intercalate pss) = Piece.bound pss.flatten := by
  unfold Piece.bound
  rw [Piece.parameters_intercalate, List.flatMap_def]
  unfold Piece.parameters
  rw [List.filterMap_flatten]

theorem Expr.held_nil : Expr.held [] = 0 := rfl

theorem Expr.held_append (es fs : List Expr) : Expr.held (es ++ fs) = Expr.held es + Expr.held fs := by
  unfold Expr.held
  rw [List.flatMap_append, Multiset.coe_add]

theorem Expr.held_singleton (e : Expr) : Expr.held [e] = e.values := by
  unfold Expr.held
  rw [List.flatMap_singleton]

theorem Condition.beside_nil : Condition.beside [] = 0 := rfl

theorem Condition.beside_append (ns ks : List Condition) :
    Condition.beside (ns ++ ks) = Condition.beside ns + Condition.beside ks := by
  unfold Condition.beside
  rw [List.flatMap_append, Multiset.coe_add]

/-- A node's own values beside a nested condition come with those of the nodes after it. -/
theorem Condition.beside_cons (n : Condition) (ns : List Condition) :
    Condition.beside (n :: ns) = (n.ownBeside : List Value) + Condition.beside ns := by
  unfold Condition.beside
  rw [List.flatMap_cons, Multiset.coe_add]

/-- The values beside nested conditions are those of the nodes. -/
theorem Condition.beside_nodes (c : Condition) : Condition.beside c.nodes = c.valuesBeside := by
  unfold Condition.beside Condition.valuesBeside
  congr 2

theorem Operand.leaves_eq_nil {o : Operand} (h : o.condition? = none) : o.leaves = [] := by
  cases o with
  | condition c => nomatch h
  | field name => rw [Operand.leaves]
  | value v => rw [Operand.leaves]

theorem Operand.nodes_eq_nil {o : Operand} (h : o.condition? = none) : o.nodes = [] := by
  cases o with
  | condition c => nomatch h
  | field name => rw [Operand.nodes]
  | value v => rw [Operand.nodes]

/-- The leaves of a map have its values. -/
theorem FieldMap.held_leaves (m : FieldMap) : Expr.held m.leaves = (m.fields.entries.map (·.2) : List Value) := by
  unfold Expr.held FieldMap.leaves
  rw [List.flatMap_map, List.map_eq_flatMap]
  rfl

/-- Against the schema of an entity that declares all the fields of a map, its values are bound, in another order. -/
theorem FieldMap.bound_pieces {s : EntitySchema} (comparison : Operator) {m : FieldMap} (h : m.check (.entity s) = .ok ()) :
    Piece.bound (m.pieces (.entity s) comparison) = Expr.held m.leaves := by
  have hperm := (FieldMap.selected_perm_entries h).map (·.2)
  rw [List.map_map] at hperm
  unfold Piece.bound
  rw [FieldMap.held_leaves, FieldMap.parameters_pieces, List.map_map, Multiset.coe_eq_coe]
  exact hperm

/-! ## Conditions -/

mutual

/-- An accepted condition binds the values of its leaves and those beside nested conditions, each once. -/
theorem Condition.bound_pieces {s : EntitySchema} (comparison : Operator) : ∀ c : Condition, c.check (.entity s) = .ok () →
    Piece.bound (c.pieces (.entity s) comparison) = Expr.held c.leaves + Condition.beside c.nodes
  | .expr ⟨left, op, right⟩, h => by
    rw [Condition.check, seq_eq_ok_iff] at h
    have hl := Operand.bound_pieces comparison left right.field? h.1
    have hr := Operand.bound_pieces comparison right left.field? h.2
    have hpieces : Piece.bound ((Condition.expr ⟨left, op, right⟩).pieces (.entity s) comparison) =
        Piece.bound (left.pieces (.entity s) comparison right.field?) +
          Piece.bound (right.pieces (.entity s) comparison left.field?) := by
      rw [Condition.pieces, Piece.bound_append]
      rfl
    have hnodes : Condition.beside (Condition.expr ⟨left, op, right⟩).nodes =
        (Condition.ownBeside (.expr ⟨left, op, right⟩) : List Value) +
          (Condition.beside left.nodes + Condition.beside right.nodes) := by
      rw [Condition.nodes, Condition.beside_cons, Condition.beside_append]
    have hvalues : ((Expr.mk left op right).values : Multiset Value) =
        (left.value?.toList : List Value) + (right.value?.toList : List Value) := (Multiset.coe_add _ _).symm
    rw [hpieces, hl, hr, hnodes, Condition.leaves, Condition.ownBeside]
    split
    · -- in a leaf there is no condition, and its values are its own
      rename_i hleaf
      obtain ⟨hleft, hright⟩ := (Expr.isLeaf_iff _).1 hleaf
      rw [Operand.leaves_eq_nil hleft, Operand.nodes_eq_nil hleft, Operand.leaves_eq_nil hright, Operand.nodes_eq_nil hright,
        Expr.held_singleton, Expr.held_nil, Condition.beside_nil, Multiset.coe_nil, hvalues]
      abel
    · rw [Expr.held_append, hvalues]
      abel
  | .list items op, h => by
    rw [Condition.check] at h
    rw [Condition.pieces, Piece.operator, Piece.bound_intercalate, Condition.bound_piecesOfItems comparison items h,
      Condition.leaves, Condition.nodes, Condition.beside_cons, Condition.ownBeside, Multiset.coe_nil, zero_add]
    exact nofun
  | .fieldMap m, h => by
    rw [Condition.check] at h
    rw [Condition.pieces, Condition.leaves, Condition.nodes, FieldMap.bound_pieces comparison h, Condition.beside_cons,
      Condition.ownBeside, Condition.beside_nil, Multiset.coe_nil, add_zero, add_zero]
    exact nofun
  | .raw text, _ => by
    rw [Condition.pieces, Condition.leaves, Condition.nodes]
    rfl

theorem Condition.bound_piecesOfItems {s : EntitySchema} (comparison : Operator) : ∀ cs : List Condition,
    Condition.checkItems (.entity s) cs = .ok () →
    Piece.bound ((Condition.piecesOfItems (.entity s) comparison cs).flatten) =
      Expr.held (Condition.leavesOf cs) + Condition.beside (Condition.nodesOf cs)
  | [], _ => by
    rw [Condition.piecesOfItems, Condition.leavesOf, Condition.nodesOf]
    rfl
  | c :: cs, h => by
    rw [Condition.checkItems, seq_eq_ok_iff] at h
    have hc := Condition.bound_pieces comparison c h.1
    have hcs := Condition.bound_piecesOfItems comparison cs h.2
    rw [Condition.piecesOfItems, Condition.leavesOf, Condition.nodesOf, List.flatten_cons, Piece.bound_append,
      Piece.bound_parentheses, Expr.held_append, Condition.beside_append, hc, hcs]
    abel

/-- An accepted operand binds the values of its leaves, its own if it is a value, and those beside nested conditions. -/
theorem Operand.bound_pieces {s : EntitySchema} (comparison : Operator) : ∀ (o : Operand) (counterpart : Option String),
    o.check (.entity s) = .ok () →
    Piece.bound (o.pieces (.entity s) comparison counterpart) =
      Expr.held o.leaves + (o.value?.toList : List Value) + Condition.beside o.nodes
  | .condition c, _, h => by
    rw [Operand.check] at h
    have hvalue : (Operand.condition c).value? = none := rfl
    rw [Operand.pieces, Operand.leaves, Operand.nodes, Condition.bound_pieces comparison c h, hvalue, Option.toList_none,
      Multiset.coe_nil, add_zero]
  | .field name, _, _ => by
    rw [Operand.pieces, Operand.leaves, Operand.nodes]
    rfl
  | .value v, _, _ => by
    rw [Operand.pieces, Operand.leaves, Operand.nodes]
    rfl

end

/-! ## Compiling -/

/-- The values of a clause of an accepted condition are those of its leaves and those beside nested conditions. -/
theorem Condition.values_clauseWith {c : Condition} {s : EntitySchema} (comparison : Operator) (d : Dialect)
    (h : c.check (.entity s) = .ok ()) :
    (((c.clauseWith (.entity s) comparison d).2.map (·.value) : List Value) : Multiset Value) =
      (c.visited.flatMap Expr.values : List Value) + (c.valuesBeside : List Value) := by
  rw [Condition.clauseWith_eq, ← Condition.beside_nodes, Condition.visited_eq_leaves]
  exact Condition.bound_pieces comparison c h

/-- A condition that the schema of an entity accepts is compiled in every dialect and with every comparison for the fields of
maps, and the values that are bound are, as a multiset, the sides that are values of the expressions that a test on every leaf
is run on, and of the expressions that have a nested condition on one side. So many parameters are counted. -/
theorem Condition.values_compile (c : Condition) (s : EntitySchema) (hv : c.validate (.entity s) = .ok ()) :
    (∀ k : Compiler, ∃ out, k.compile c (.entity s) = .ok out ∧
      (out.values : Multiset Value) = (c.visited.flatMap Expr.values : List Value) + (c.valuesBeside : List Value)) ∧
    c.parameterCount (.entity s) = (c.visited.flatMap Expr.values).length + c.valuesBeside.length := by
  have hcheck : c.check (.entity s) = .ok () := (c.validate_eq_check _).symm.trans hv
  constructor
  · intro k
    let out : Compiled := ⟨(c.clauseWith (.entity s) k.comparison k.settings.dialect).1,
      (c.clauseWith (.entity s) k.comparison k.settings.dialect).2⟩
    refine ⟨out, (k.compile_eq_ok_iff c _ out).2 ⟨fun _ => hv, rfl⟩, ?_⟩
    exact Condition.values_clauseWith k.comparison k.settings.dialect hcheck
  · have h := congrArg Multiset.card (Condition.values_clauseWith .eq .standard hcheck)
    rw [Multiset.card_add, Multiset.coe_card, Multiset.coe_card, Multiset.coe_card, List.length_map, Condition.clauseWith_eq,
      Condition.length_parameters] at h
    exact h

/-- A map in another order than the schema's, a value beside it, and values on both sides of a leaf: each is bound once. -/
theorem Condition.values_compile_mixed :
    ∃ s, EntitySchema.ofFields "person" [⟨"status", .char⟩, ⟨"name", .varChar⟩, ⟨"id", .long⟩] = .ok s ∧
      let c : Condition := .list
        [.expr ⟨.value (.int 1), .or, .condition (.ofFields .and [("name", .null), ("status", .null)])⟩,
          .expr ⟨.value (.boolean true), .lt, .value .null⟩, .raw "?"] .or
      c.validate (.entity s) = .ok () ∧
      (∀ k : Compiler, ∃ out, k.compile c (.entity s) = .ok out ∧
        (out.values : Multiset Value) = (c.visited.flatMap Expr.values : List Value) + (c.valuesBeside : List Value)) ∧
      c.parameterCount (.entity s) = (c.visited.flatMap Expr.values).length + c.valuesBeside.length := by
  refine ⟨_, rfl, ?_⟩
  intro c
  exact ⟨rfl, Condition.values_compile c _ rfl⟩

end WhereClause
