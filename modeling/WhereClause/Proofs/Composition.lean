import Mathlib.Tactic.Choose
import WhereClause.Proofs.Keeping

/-!
# Composition: replacing leaves twice

Replacing the leaves of a condition and then those of the result can be done in one pass by the two functions one after the other,
provided that the first gives a leaf for every leaf, and an equation of the same field for every equation of a field and a value
(`Condition.mapLeaves_mapLeaves`). Without the second condition a map may become a list in the first pass, or have its entries in
another order, and the second pass would not find it as the one pass does.

The passes keep different parts of what they go through, so what comes of them is compared up to sameness. Building anew keeps
nothing, and of that the law holds as an equation (`Condition.anew_anew`); the second function then has to give the same answer for
expressions that are the same, since it may be called on a leaf that the first pass kept instead of the answer for it.
-/

namespace WhereClause

/-! ## Building anew with a function that keeps no state -/

section Anew

variable (g : Expr → Condition)

/-- A condition built anew from the answers of a function that keeps no state. -/
def Condition.anew (c : Condition) : Condition := Id.run (c.rebuild fun e => pure (g e))

/-- Conditions built anew, one after the other. -/
def Condition.anewItems (cs : List Condition) : List Condition := Id.run (Condition.rebuildItems (fun e => pure (g e)) cs)

/-- An operand built anew. -/
def Operand.anew (o : Operand) : Operand := Id.run (o.rebuild fun e => pure (g e))

theorem Condition.anew_leaf {e : Expr} (h : e.isLeaf = true) : (Condition.expr e).anew g = g e := by
  obtain ⟨left, op, right⟩ := e
  rw [Condition.anew, Condition.rebuild, if_pos h, Id.run_pure]

/-- An expression with a condition on one side is built anew side by side. -/
theorem Condition.anew_joined {left right : Operand} {op : Operator} (h : ¬ (Expr.mk left op right).isLeaf = true) :
    (Condition.expr ⟨left, op, right⟩).anew g = .expr ⟨left.anew g, op, right.anew g⟩ := by
  rw [Condition.anew, Condition.rebuild, if_neg h]
  rfl

@[simp] theorem Condition.anew_list (items : List Condition) (op : Operator) :
    (Condition.list items op).anew g = .list (Condition.anewItems g items) op := by
  rw [Condition.anew, Condition.rebuild]
  rfl

/-- A map gives way to the answers for its entries, put together. -/
@[simp] theorem Condition.anew_fieldMap (m : FieldMap) :
    (Condition.fieldMap m).anew g = FieldMap.ofAnswers m.operator (m.leaves.map g) := by
  rw [Condition.anew, Condition.rebuild, List.mapM_pure, pure_bind, Id.run_pure]

@[simp] theorem Condition.anew_raw (text : String) : (Condition.raw text).anew g = .raw text := by
  rw [Condition.anew, Condition.rebuild, Id.run_pure]

@[simp] theorem Condition.anewItems_nil : Condition.anewItems g [] = [] := by
  rw [Condition.anewItems, Condition.rebuildItems, Id.run_pure]

@[simp] theorem Condition.anewItems_cons (c : Condition) (cs : List Condition) :
    Condition.anewItems g (c :: cs) = c.anew g :: Condition.anewItems g cs := by
  rw [Condition.anewItems, Condition.rebuildItems]
  rfl

@[simp] theorem Operand.anew_condition (c : Condition) : (Operand.condition c).anew g = .condition (c.anew g) := by
  rw [Operand.anew, Operand.rebuild]
  rfl

@[simp] theorem Operand.anew_field (name : String) : (Operand.field name).anew g = .field name := by
  rw [Operand.anew, Operand.rebuild, Id.run_pure]

@[simp] theorem Operand.anew_value (v : Value) : (Operand.value v).anew g = .value v := by
  rw [Operand.anew, Operand.rebuild, Id.run_pure]

/-- An operand built anew is a condition if it was one. -/
@[simp] theorem Operand.isCondition_anew (o : Operand) : (o.anew g).isCondition = o.isCondition := by
  cases o with
  | condition c => simp [Operand.isCondition]
  | field name => simp
  | value v => simp

/-- An expression built anew side by side is a leaf if it was one. -/
@[simp] theorem Expr.isLeaf_anew (left right : Operand) (op : Operator) :
    (Expr.mk (left.anew g) op (right.anew g)).isLeaf = (Expr.mk left op right).isLeaf := by
  rw [Expr.isLeaf, Expr.isLeaf, Operand.isCondition_anew, Operand.isCondition_anew]

/-- Replacing leaves gives what is the same as building anew. -/
theorem Condition.same_mapLeaves_anew (c : Condition) :
    (Id.run (c.mapLeaves fun e => pure (g e))).same (c.anew g) = true := c.same_replace g

end Anew

/-! ## Building the same anew -/

/-- A function on leaves gives the same answer for leaves that are the same. -/
def Expr.Respects (g : Expr → Condition) : Prop := ∀ e e' : Expr, e.isLeaf = true → e.same e' = true → (g e).same (g e') = true

/-- The answers for the entries of maps with values that are the same are the same. -/
theorem Expr.Respects.sameItems {g : Expr → Condition} (hg : Expr.Respects g) : ∀ {es fs : List (String × Value)},
    Value.sameEntries es fs = true →
    Condition.sameItems ((es.map fun e => Expr.mk (.field e.1) .eq (.value e.2)).map g)
      ((fs.map fun e => Expr.mk (.field e.1) .eq (.value e.2)).map g) = true
  | [], fs, h => by
    rw [Value.sameEntries_nil_iff.1 h]
    exact Condition.sameItems_self _
  | (name, v) :: es, fs, h => by
    obtain ⟨w, fs, rfl, hv, hes⟩ := Value.sameEntries_cons_iff.1 h
    exact Condition.sameItems_cons_iff.2 ⟨_, _, rfl, hg _ _ rfl (Expr.same_equation name hv), hg.sameItems hes⟩

mutual

/-- Conditions that are the same are built anew as conditions that are the same. -/
theorem Condition.anew_congr {g : Expr → Condition} (hg : Expr.Respects g) : ∀ {c d : Condition}, c.same d = true →
    (c.anew g).same (d.anew g) = true
  | .expr ⟨left, op, right⟩, d, h => by
    obtain ⟨⟨left', op', right'⟩, rfl, hexpr⟩ := Condition.same_expr_iff.1 h
    obtain ⟨hl, rfl, hr⟩ := Expr.same_iff.1 hexpr
    have hleaf := Expr.isLeaf_eq_of_same hexpr
    by_cases hthis : (Expr.mk left op right).isLeaf = true
    · rw [Condition.anew_leaf g hthis, Condition.anew_leaf g (hleaf ▸ hthis)]
      exact hg _ _ hthis hexpr
    · rw [Condition.anew_joined g hthis, Condition.anew_joined g (hleaf ▸ hthis)]
      have hsides : (Expr.mk (left.anew g) op (right.anew g)).same ⟨left'.anew g, op, right'.anew g⟩ = true :=
        Expr.same_iff.2 ⟨Operand.anew_congr hg hl, rfl, Operand.anew_congr hg hr⟩
      exact Condition.same_expr_iff.2 ⟨_, rfl, hsides⟩
  | .list items op, d, h => by
    obtain ⟨others, rfl, hitems⟩ := Condition.same_list_iff.1 h
    rw [Condition.anew_list, Condition.anew_list]
    exact Condition.same_list_iff.2 ⟨_, rfl, Condition.anewItems_congr hg hitems⟩
  | .fieldMap ⟨fields, op⟩, d, h => by
    obtain ⟨others, rfl, hentries⟩ := Condition.same_fieldMap_iff.1 h
    rw [Condition.anew_fieldMap, Condition.anew_fieldMap]
    exact FieldMap.ofAnswers_congr op (hg.sameItems hentries)
  | .raw text, d, h => by
    rw [Condition.same_raw_iff.1 h]
    exact Condition.same_self _

theorem Condition.anewItems_congr {g : Expr → Condition} (hg : Expr.Respects g) : ∀ {cs ds : List Condition},
    Condition.sameItems cs ds = true → Condition.sameItems (Condition.anewItems g cs) (Condition.anewItems g ds) = true
  | [], ds, h => by
    rw [Condition.sameItems_nil_iff.1 h]
    exact Condition.sameItems_self _
  | c :: cs, ds, h => by
    obtain ⟨d, ds, rfl, hc, hcs⟩ := Condition.sameItems_cons_iff.1 h
    rw [Condition.anewItems_cons, Condition.anewItems_cons]
    exact Condition.sameItems_cons_iff.2 ⟨_, _, rfl, Condition.anew_congr hg hc, Condition.anewItems_congr hg hcs⟩

theorem Operand.anew_congr {g : Expr → Condition} (hg : Expr.Respects g) : ∀ {o p : Operand}, o.same p = true →
    (o.anew g).same (p.anew g) = true
  | .condition c, p, h => by
    obtain ⟨d, rfl, hc⟩ := Operand.same_condition_iff.1 h
    rw [Operand.anew_condition, Operand.anew_condition]
    exact Operand.same_condition_iff.2 ⟨_, rfl, Condition.anew_congr hg hc⟩
  | .field name, p, h => by
    rw [Operand.same_field_iff.1 h]
    exact Operand.same_self _
  | .value v, p, h => by
    obtain ⟨w, rfl, hv⟩ := Operand.same_value_iff.1 h
    rw [Operand.anew_value, Operand.anew_value]
    exact Operand.same_value_iff.2 ⟨w, rfl, hv⟩

end

/-! ## Building anew twice -/

/-- A function on leaves gives a leaf for every leaf, and for every equation of a field and a value an equation of the same field
and any value. -/
structure Expr.Revalues (f : Expr → Expr) : Prop where
  leaf : ∀ e : Expr, e.isLeaf = true → (f e).isLeaf = true
  equation : ∀ (name : String) (v : Value), ∃ w : Value, f ⟨.field name, .eq, .value v⟩ = ⟨.field name, .eq, .value w⟩

/-- The answers for the entries of a map are the entries of a map. -/
theorem Expr.Revalues.exists_fields {f : Expr → Expr} (hf : Expr.Revalues f) (m : FieldMap) :
    ∃ fields : Bindings Value, m.leaves.map f = (FieldMap.mk fields m.operator).leaves := by
  choose w hw using hf.equation
  have hrising : Entries.Rising (m.fields.entries.map fun e => (e.1, w e.1 e.2)) := by
    simpa [Entries.Rising, List.map_map, Function.comp_def] using m.fields.rising
  refine ⟨⟨_, hrising⟩, ?_⟩
  simp only [FieldMap.leaves, List.map_map, Function.comp_def, hw]

mutual

/-- Building anew twice is building anew with the two functions one after the other. -/
theorem Condition.anew_anew {f : Expr → Expr} (hf : Expr.Revalues f) (g : Expr → Condition) : ∀ c : Condition,
    (c.anew fun e => .expr (f e)).anew g = c.anew fun e => g (f e)
  | .expr ⟨left, op, right⟩ => by
    by_cases hleaf : (Expr.mk left op right).isLeaf = true
    · rw [Condition.anew_leaf _ hleaf, Condition.anew_leaf _ hleaf, Condition.anew_leaf g (hf.leaf _ hleaf)]
    · have hjoined : ¬ (Expr.mk (left.anew fun e => .expr (f e)) op (right.anew fun e => .expr (f e))).isLeaf = true := by
        rwa [Expr.isLeaf_anew]
      rw [Condition.anew_joined _ hleaf, Condition.anew_joined _ hleaf, Condition.anew_joined g hjoined,
        Operand.anew_anew hf g left, Operand.anew_anew hf g right]
  | .list items op => by
    simp [Condition.anewItems_anewItems hf g items]
  | .fieldMap m => by
    obtain ⟨fields, hfields⟩ := hf.exists_fields m
    have hanswers : m.leaves.map (fun e => Condition.expr (f e)) = (FieldMap.mk fields m.operator).leaves.map .expr := by
      rw [← hfields, List.map_map]
      rfl
    have hmap : (Condition.fieldMap m).anew (fun e => .expr (f e)) = .fieldMap ⟨fields, m.operator⟩ := by
      rw [Condition.anew_fieldMap, hanswers, FieldMap.map_expr_leaves, FieldMap.ofAnswers_equations]
    rw [hmap, Condition.anew_fieldMap, Condition.anew_fieldMap, ← hfields, List.map_map]
    rfl
  | .raw text => by simp

theorem Condition.anewItems_anewItems {f : Expr → Expr} (hf : Expr.Revalues f) (g : Expr → Condition) :
    ∀ cs : List Condition,
      Condition.anewItems g (Condition.anewItems (fun e => .expr (f e)) cs) = Condition.anewItems (fun e => g (f e)) cs
  | [] => by simp
  | c :: cs => by simp [Condition.anew_anew hf g c, Condition.anewItems_anewItems hf g cs]

theorem Operand.anew_anew {f : Expr → Expr} (hf : Expr.Revalues f) (g : Expr → Condition) : ∀ o : Operand,
    (o.anew fun e => .expr (f e)).anew g = o.anew fun e => g (f e)
  | .condition c => by simp [Condition.anew_anew hf g c]
  | .field name => by simp
  | .value v => by simp

end

/-! ## Replacing twice -/

/-- Let a function give a leaf for every leaf, and for every equation of a field and a value an equation of that field and some
value; and let another give any answers, the same for leaves that are the same. Replacing the leaves of a condition by the first,
and then those of the result by the second, gives the same condition as replacing them once by the second after the first; and this
is the same as the condition built anew from what the second answers for what the first gives. -/
theorem Condition.mapLeaves_mapLeaves (c : Condition) {f : Expr → Expr} {g : Expr → Condition} (hf : Expr.Revalues f)
    (hg : Expr.Respects g) :
    (Id.run ((Id.run (c.mapLeaves fun e => pure (.expr (f e)))).mapLeaves fun e => pure (g e))).same
      (Id.run (c.mapLeaves fun e => pure (g (f e)))) = true ∧
    (Id.run (c.mapLeaves fun e => pure (g (f e)))).same (c.anew fun e => g (f e)) = true := by
  -- what the first pass gave is the same as what is built anew, and so the second pass builds the same of both
  have hfirst := Condition.same_mapLeaves_anew (fun e => .expr (f e)) c
  generalize hone : Id.run (c.mapLeaves fun e => pure (.expr (f e))) = one at hfirst
  have hsecond : (one.anew g).same (c.anew fun e => g (f e)) = true := by
    rw [← Condition.anew_anew hf g c]
    exact Condition.anew_congr hg hfirst
  have htwice := Condition.same_trans (Condition.same_mapLeaves_anew g one) hsecond
  have honce := Condition.same_mapLeaves_anew (fun e => g (f e)) c
  refine ⟨Condition.same_trans htwice ?_, honce⟩
  rwa [Condition.same_comm]

/-- A map and an expression with its value on the left: the first function gives a new value to every equation with a value on the
right, and the second puts a list in place of every equation, so that the map becomes a list of lists. -/
theorem Condition.mapLeaves_mapLeaves_listed :
    let c : Condition := .list [.ofFields .or [("a", .int 1), ("b", .null)], .expr ⟨.value .null, .lt, .field "a"⟩] .and
    let f (e : Expr) : Expr := if e.right.value?.isSome then ⟨e.left, e.operator, .value (.boolean true)⟩ else e
    let g (e : Expr) : Condition := if e.operator = .eq then .list [.expr e, .raw "x"] .or else .expr e
    Expr.Revalues f ∧ Expr.Respects g ∧
      (Id.run ((Id.run (c.mapLeaves fun e => pure (.expr (f e)))).mapLeaves fun e => pure (g e))).same
        (Id.run (c.mapLeaves fun e => pure (g (f e)))) = true ∧
      (Id.run (c.mapLeaves fun e => pure (g (f e)))).same (c.anew fun e => g (f e)) = true := by
  intro c f g
  have hf : Expr.Revalues f := by
    refine ⟨?_, fun name v => ⟨.boolean true, rfl⟩⟩
    rintro ⟨left, op, condition | field | value⟩ hleaf
    · exact hleaf
    · exact hleaf
    · exact hleaf
  have hg : Expr.Respects g := by
    rintro ⟨left, op, right⟩ ⟨left', op', right'⟩ - hsame
    obtain ⟨-, rfl, -⟩ := Expr.same_iff.1 hsame
    have hanswer := Condition.same_expr_iff.2 ⟨_, rfl, hsame⟩
    by_cases hop : op = .eq
    · have hitems := Condition.sameItems_cons_iff.2 ⟨_, _, rfl, hanswer, Condition.sameItems_self [.raw "x"]⟩
      simpa [g, hop] using Condition.same_list_iff.2 ⟨_, rfl, hitems⟩
    · simpa [g, hop] using hanswer
  exact ⟨hf, hg, Condition.mapLeaves_mapLeaves c hf hg⟩

end WhereClause
