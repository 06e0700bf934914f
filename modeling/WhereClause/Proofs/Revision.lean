import Mathlib.Data.List.Forall2
import WhereClause.Proofs.Omissions
import WhereClause.Proofs.Rebuild
import WhereClause.Proofs.Shape

/-!
# Revision: other operators and values in the leaves

A revision of a leaf is a leaf with the same fields in the same places and a value wherever the leaf has one; its operator and its
values are free. Replacing the leaves of a condition by revisions may put a list in the place of a map, and a list binds the values
of the fields that a map leaves out. So there may be more parameters than before, but never fewer, and a condition that is accepted
has as many as before; nor does it change whether a condition is accepted. If no operator is changed either, all that changes are
values, which a clause does not show (`Condition.mapLeaves_revised`).

Both follow from one statement: a relation that holds of conditions put together alike from parts of which it holds, and that holds
between each leaf and the answer for it, holds between a condition and what replacing its leaves gives
(`Condition.Compositional.mapLeaves`).
-/

namespace WhereClause

/-! ## What a computation yields -/

/-- Whatever state a computation starts in, its result has a property. -/
def Yields {σ α : Type} (P : α → Prop) (x : StateM σ α) : Prop := ∀ st : σ, P (x.run st).1

section Yields

variable {σ α β : Type}

theorem Yields.pure {P : α → Prop} {a : α} (h : P a) : Yields (σ := σ) P (Pure.pure a) := fun _ => h

theorem Yields.bind {P : α → Prop} {Q : β → Prop} {x : StateM σ α} {f : α → StateM σ β} (h : Yields P x)
    (hnext : ∀ a, P a → Yields Q (f a)) : Yields Q (x >>= f) :=
  fun st => hnext (x.run st).1 (h st) (x.run st).2

/-- A computation run on each of some things, related to each by its result, yields related results. -/
theorem Yields.mapM {R : α → β → Prop} {f : α → StateM σ β} {as : List α} (h : ∀ a ∈ as, Yields (R a) (f a)) :
    Yields (List.Forall₂ R as) (as.mapM f) := by
  induction as with
  | nil =>
    rw [List.mapM_nil]
    exact .pure .nil
  | cons a as ih =>
    rw [List.mapM_cons]
    refine (h a List.mem_cons_self).bind fun b hb => ?_
    refine (ih fun a' ha' => h a' (List.mem_cons_of_mem a ha')).bind fun bs hbs => ?_
    exact .pure (.cons hb hbs)

end Yields

/-! ## Relations carried from leaves to conditions -/

/-- A relation between conditions, carried over to operands. -/
inductive Operand.Lifted (R : Condition → Condition → Prop) : Operand → Operand → Prop where
  | condition {c new : Condition} (h : R c new) : Operand.Lifted R (.condition c) (.condition new)
  | field (name : String) : Operand.Lifted R (.field name) (.field name)
  | value (v : Value) : Operand.Lifted R (.value v) (.value v)

/-- A relation holds between conditions that are put together alike from parts between which it holds, a map from its entries and
from the answers for them, and it does not tell conditions apart that are the same. -/
structure Condition.Compositional (R : Condition → Condition → Prop) : Prop where
  raw : ∀ text : String, R (.raw text) (.raw text)
  expr : ∀ {left left' right right' : Operand} {op : Operator}, Operand.Lifted R left left' → Operand.Lifted R right right' →
    R (.expr ⟨left, op, right⟩) (.expr ⟨left', op, right'⟩)
  list : ∀ {items items' : List Condition} {op : Operator}, List.Forall₂ R items items' → R (.list items op) (.list items' op)
  fieldMap : ∀ {m : FieldMap} {answers : List Condition}, List.Forall₂ (fun e => R (.expr e)) m.leaves answers →
    R (.fieldMap m) (FieldMap.ofAnswers m.operator answers)
  same : ∀ {c new new' : Condition}, R c new → new'.same new = true → R c new'

section Compositional

variable {R : Condition → Condition → Prop} {σ : Type} {f : Expr → StateM σ Condition}

mutual

/-- A condition is related to what is built anew from answers that its leaves are related to. -/
theorem Condition.Compositional.rebuild (hR : Condition.Compositional R) : ∀ c : Condition,
    (∀ e ∈ c.leaves, Yields (R (.expr e)) (f e)) → Yields (R c) (c.rebuild f)
  | .expr ⟨left, op, right⟩, h => by
    rw [Condition.leaves] at h
    rw [Condition.rebuild]
    split
    · rename_i hleaf
      rw [if_pos hleaf] at h
      exact h _ (List.mem_singleton_self _)
    · rename_i hleaf
      rw [if_neg hleaf, List.forall_mem_append] at h
      refine (Condition.Compositional.rebuildOperand hR left h.1).bind fun newLeft hl => ?_
      refine (Condition.Compositional.rebuildOperand hR right h.2).bind fun newRight hr => ?_
      exact .pure (hR.expr hl hr)
  | .list items op, h => by
    rw [Condition.leaves] at h
    rw [Condition.rebuild]
    refine (Condition.Compositional.rebuildItems hR items h).bind fun built hbuilt => ?_
    exact .pure (hR.list hbuilt)
  | .fieldMap m, h => by
    rw [Condition.leaves] at h
    rw [Condition.rebuild]
    refine (Yields.mapM h).bind fun answers hanswers => ?_
    exact .pure (hR.fieldMap hanswers)
  | .raw text, _ => by
    rw [Condition.rebuild]
    exact .pure (hR.raw text)

theorem Condition.Compositional.rebuildItems (hR : Condition.Compositional R) : ∀ cs : List Condition,
    (∀ e ∈ Condition.leavesOf cs, Yields (R (.expr e)) (f e)) → Yields (List.Forall₂ R cs) (Condition.rebuildItems f cs)
  | [], _ => by
    rw [Condition.rebuildItems]
    exact .pure .nil
  | c :: cs, h => by
    rw [Condition.leavesOf, List.forall_mem_append] at h
    rw [Condition.rebuildItems]
    refine (Condition.Compositional.rebuild hR c h.1).bind fun built hbuilt => ?_
    refine (Condition.Compositional.rebuildItems hR cs h.2).bind fun rest hrest => ?_
    exact .pure (.cons hbuilt hrest)

theorem Condition.Compositional.rebuildOperand (hR : Condition.Compositional R) : ∀ o : Operand,
    (∀ e ∈ o.leaves, Yields (R (.expr e)) (f e)) → Yields (Operand.Lifted R o) (o.rebuild f)
  | .condition c, h => by
    rw [Operand.leaves] at h
    rw [Operand.rebuild]
    refine (Condition.Compositional.rebuild hR c h).bind fun built hbuilt => ?_
    exact .pure (.condition hbuilt)
  | .field name, _ => by
    rw [Operand.rebuild]
    exact .pure (.field name)
  | .value v, _ => by
    rw [Operand.rebuild]
    exact .pure (.value v)

end

/-- A condition is related to what replacing its leaves gives, if each leaf is related to every answer for it. -/
theorem Condition.Compositional.mapLeaves (hR : Condition.Compositional R) (c : Condition)
    (h : ∀ e ∈ c.leaves, Yields (R (.expr e)) (f e)) : Yields (R c) (c.mapLeaves f) :=
  fun st => hR.same (hR.rebuild c h st) (c.agree_replace f st).1

end Compositional

/-! ## Shapes -/

/-- Bindings of the same names are equal with null for each of their values. -/
theorem Bindings.map_null_eq {fields others : Bindings Value} (h : others.names = fields.names) :
    (others.map fun _ => Value.null) = fields.map fun _ => Value.null := by
  have hentries : ∀ b : Bindings Value, (b.map fun _ => Value.null).entries = b.names.map fun name => (name, .null) := by
    intro b
    rw [Bindings.map, Bindings.names, List.map_map]
    rfl
  refine Bindings.ext ?_
  rw [hentries, hentries, h]

mutual

/-- Conditions that are the same are of one shape. -/
theorem Condition.shape_eq_of_same : ∀ {c d : Condition}, c.same d = true → c.shape = d.shape
  | .expr ⟨left, op, right⟩, d, h => by
    obtain ⟨⟨left', op', right'⟩, rfl, hexpr⟩ := Condition.same_expr_iff.1 h
    obtain ⟨hl, rfl, hr⟩ := Expr.same_iff.1 hexpr
    rw [Condition.shape, Condition.shape, Operand.shape_eq_of_same hl, Operand.shape_eq_of_same hr]
  | .list items op, d, h => by
    obtain ⟨others, rfl, hitems⟩ := Condition.same_list_iff.1 h
    rw [Condition.shape, Condition.shape, Condition.shapes_eq_of_same hitems]
  | .fieldMap ⟨fields, op⟩, d, h => by
    obtain ⟨others, rfl, hentries⟩ := Condition.same_fieldMap_iff.1 h
    rw [Condition.shape, Condition.shape, Bindings.map_null_eq (Value.names_eq_of_sameEntries hentries)]
  | .raw text, d, h => by rw [Condition.same_raw_iff.1 h]

theorem Condition.shapes_eq_of_same : ∀ {cs ds : List Condition}, Condition.sameItems cs ds = true →
    Condition.shapes cs = Condition.shapes ds
  | [], ds, h => by rw [Condition.sameItems_nil_iff.1 h]
  | c :: cs, ds, h => by
    obtain ⟨d, ds, rfl, hc, hcs⟩ := Condition.sameItems_cons_iff.1 h
    rw [Condition.shapes, Condition.shapes, Condition.shape_eq_of_same hc, Condition.shapes_eq_of_same hcs]

theorem Operand.shape_eq_of_same : ∀ {o p : Operand}, o.same p = true → o.shape = p.shape
  | .condition c, p, h => by
    obtain ⟨d, rfl, hc⟩ := Operand.same_condition_iff.1 h
    rw [Operand.shape, Operand.shape, Condition.shape_eq_of_same hc]
  | .field name, p, h => by rw [Operand.same_field_iff.1 h]
  | .value v, p, h => by
    obtain ⟨w, rfl, -⟩ := Operand.same_value_iff.1 h
    rw [Operand.shape, Operand.shape]

end

/-- What is of the shape of a field is that field. -/
theorem Operand.eq_of_shape_eq_field {o : Operand} {name : String} (h : o.shape = .field name) : o = .field name := by
  cases o with
  | condition c => nomatch h
  | field name => exact h
  | value v => nomatch h

/-- What is of the shape of a value is a value. -/
theorem Operand.exists_of_shape_eq_value {o : Operand} {v : Value} (h : o.shape = .value v) : ∃ w, o = .value w := by
  cases o with
  | condition c => nomatch h
  | field name => nomatch h
  | value w => exact ⟨w, rfl⟩

/-- What is of the shape of an expression is an expression with the same operator, and its sides are of the shapes of the sides. -/
theorem Condition.exists_of_shape_eq_expr {c : Condition} {left right : Operand} {op : Operator}
    (h : c.shape = .expr ⟨left, op, right⟩) :
    ∃ left' right', c = .expr ⟨left', op, right'⟩ ∧ left'.shape = left ∧ right'.shape = right := by
  cases c with
  | expr e =>
    obtain ⟨left', op', right'⟩ := e
    cases h
    exact ⟨left', right', rfl, rfl, rfl⟩
  | list items op => nomatch h
  | fieldMap m => nomatch h
  | raw text => nomatch h

/-- Answers of the shapes of a map's entries are the entries of a map for the same names. -/
theorem FieldMap.exists_of_shapes : ∀ {es : List (String × Value)} {answers : List Condition},
    List.Forall₂ (fun e answer => answer.shape = (Condition.expr ⟨.field e.1, .eq, .value e.2⟩).shape) es answers →
    ∃ fs : List (String × Value), fs.map (·.1) = es.map (·.1) ∧
      answers = fs.map fun e => .expr ⟨.field e.1, .eq, .value e.2⟩
  | [], _, .nil => ⟨[], rfl, rfl⟩
  | (name, v) :: es, _, .cons h hs => by
    obtain ⟨left, right, rfl, hleft, hright⟩ := Condition.exists_of_shape_eq_expr h
    obtain rfl := Operand.eq_of_shape_eq_field hleft
    obtain ⟨w, rfl⟩ := Operand.exists_of_shape_eq_value hright
    obtain ⟨fs, hnames, rfl⟩ := FieldMap.exists_of_shapes hs
    exact ⟨(name, w) :: fs, congrArg (name :: ·) hnames, rfl⟩

/-- Having the same shape is carried from leaves to conditions. -/
theorem Condition.compositional_shape : Condition.Compositional fun c new => new.shape = c.shape where
  raw text := rfl
  expr := by
    have hshape : ∀ {o new : Operand}, Operand.Lifted (fun c new => new.shape = c.shape) o new → new.shape = o.shape := by
      intro o new h
      cases h with
      | condition h => rw [Operand.shape, Operand.shape, h]
      | field name => rfl
      | value v => rfl
    intro left left' right right' op hl hr
    rw [Condition.shape, Condition.shape, hshape hl, hshape hr]
  list := by
    intro items items' op h
    have hshapes : Condition.shapes items' = Condition.shapes items := by
      induction h with
      | nil => rfl
      | cons hc _ ih => rw [Condition.shapes, Condition.shapes, hc, ih]
    rw [Condition.shape, Condition.shape, hshapes]
  fieldMap := by
    intro m answers h
    rw [FieldMap.leaves, List.forall₂_map_left_iff] at h
    obtain ⟨fs, hnames, rfl⟩ := FieldMap.exists_of_shapes h
    have hrising : Entries.Rising fs := by
      unfold Entries.Rising
      rw [hnames]
      exact m.fields.rising
    have hfields : (Bindings.mk fs hrising).names = m.fields.names := hnames
    rw [FieldMap.ofAnswers_equations m.operator ⟨fs, hrising⟩, Condition.shape, Condition.shape, Bindings.map_null_eq hfields]
  same := by
    intro c new new' h hsame
    rw [Condition.shape_eq_of_same hsame, h]

/-! ## Parameters and acceptance -/

/-- Something that binds a number of parameters, and is accepted on some condition, may give way to something that binds no fewer,
is accepted on the same condition, and then binds as many. -/
structure Parameter.Covered (count count' : Nat) (accepted accepted' : Prop) : Prop where
  le : count ≤ count'
  eq : accepted → count' = count
  accepted_iff : accepted' ↔ accepted

section Covered

variable {n n' n'' k k' : Nat} {p p' p'' q q' : Prop}

/-- What binds as many parameters and is accepted on the same condition may take the place. -/
theorem Parameter.Covered.of_eq (hn : n' = n) (hp : p' ↔ p) : Parameter.Covered n n' p p' := ⟨Nat.le_of_eq hn.symm, fun _ => hn, hp⟩

theorem Parameter.Covered.trans (h : Parameter.Covered n n' p p') (h' : Parameter.Covered n' n'' p' p'') :
    Parameter.Covered n n'' p p'' :=
  ⟨Nat.le_trans h.le h'.le, fun hp => (h'.eq (h.accepted_iff.2 hp)).trans (h.eq hp), h'.accepted_iff.trans h.accepted_iff⟩

theorem Parameter.Covered.add (h : Parameter.Covered n n' p p') (h' : Parameter.Covered k k' q q') :
    Parameter.Covered (n + k) (n' + k') (p ∧ q) (p' ∧ q') where
  le := Nat.add_le_add h.le h'.le
  eq := fun ⟨hp, hq⟩ => congrArg₂ (· + ·) (h.eq hp) (h'.eq hq)
  accepted_iff := and_congr h.accepted_iff h'.accepted_iff

end Covered

section Allows

variable {s : EntitySchema}

/-- Under a schema, a condition may give way to another: it binds no fewer parameters, is accepted exactly when the first is, and
then binds as many. -/
def EntitySchema.Allows (s : EntitySchema) (c new : Condition) : Prop :=
  Parameter.Covered (c.parameterCount (.entity s)) (new.parameterCount (.entity s)) (c.check (.entity s) = .ok ())
    (new.check (.entity s) = .ok ())

/-- A condition may give way to another of the same shape. -/
theorem EntitySchema.allows_of_shape_eq {c new : Condition} (h : new.shape = c.shape) : s.Allows c new := by
  refine .of_eq ?_ ?_
  · rw [← new.parameterCount_shape, h, c.parameterCount_shape]
  · rw [← Condition.check_shape _ new, h, Condition.check_shape _ c]

/-- The sides of an expression give way one by one. -/
theorem EntitySchema.covered_operand {o new : Operand} (h : Operand.Lifted s.Allows o new) :
    Parameter.Covered (o.parameterCount (.entity s)) (new.parameterCount (.entity s)) (o.check (.entity s) = .ok ())
      (new.check (.entity s) = .ok ()) := by
  cases h with
  | condition h =>
    rw [Operand.parameterCount, Operand.parameterCount, Operand.check, Operand.check]
    exact h
  | field name => exact .of_eq rfl Iff.rfl
  | value v => exact .of_eq rfl Iff.rfl

/-- The items of a list give way one by one. -/
theorem EntitySchema.covered_items {cs new : List Condition} (h : List.Forall₂ s.Allows cs new) :
    Parameter.Covered (Condition.parameterCounts (.entity s) cs) (Condition.parameterCounts (.entity s) new)
      (Condition.checkItems (.entity s) cs = .ok ()) (Condition.checkItems (.entity s) new = .ok ()) := by
  induction h with
  | nil => exact .of_eq rfl Iff.rfl
  | cons hc _ ih =>
    rw [Condition.parameterCounts, Condition.parameterCounts, Condition.checkItems, Condition.checkItems,
      seq_eq_ok_iff, seq_eq_ok_iff]
    exact hc.add ih

/-- A map binds as many parameters as it has declared names, and is accepted if all its names are declared. -/
theorem FieldMap.parameters_of_perm {m : FieldMap} {names : List String} (h : m.fields.names.Perm names) (s : EntitySchema) :
    (m.selected (.entity s)).length = names.countP (Schema.entity s).declares ∧
      (m.check (.entity s) = .ok () ↔ ∀ name ∈ names, (Schema.entity s).declares name = true) := by
  constructor
  · have hnodup := FieldMap.nodup_names_selected (Schema.nodup_names_entity s) m
    rw [← h.countP_eq, List.countP_eq_length_filter, ← m.length_dedup_selected, hnodup.dedup, List.length_map]
  · rw [m.check_eq_ok_iff, Schema.hasFields_iff]
    simp only [h.mem_iff, Schema.declares_iff]

/-- An equation binds one parameter. -/
theorem EntitySchema.parameterCount_equation (s : EntitySchema) (e : String × Value) :
    (Condition.expr ⟨.field e.1, .eq, .value e.2⟩).parameterCount (.entity s) = 1 := by
  rw [Condition.parameterCount, Operand.parameterCount, Operand.parameterCount]

/-- An equation is accepted exactly when its field is declared. -/
theorem EntitySchema.check_equation_iff (s : EntitySchema) (e : String × Value) :
    (Condition.expr ⟨.field e.1, .eq, .value e.2⟩).check (.entity s) = .ok () ↔ (Schema.entity s).declares e.1 = true := by
  rw [Condition.check, seq_eq_ok_iff, Operand.check, Operand.check, Schema.declares_eq_hasField]
  simp

/-- Names may take the place of names that are declared like them, one by one. -/
theorem EntitySchema.covered_names {names others : List String}
    (h : List.Forall₂ (fun name other => (Schema.entity s).declares other = (Schema.entity s).declares name) names others) :
    Parameter.Covered (names.countP (Schema.entity s).declares) (others.countP (Schema.entity s).declares)
      (∀ name ∈ names, (Schema.entity s).declares name = true) (∀ name ∈ others, (Schema.entity s).declares name = true) := by
  induction h with
  | nil => exact .of_eq rfl Iff.rfl
  | cons hname _ ih =>
    rw [List.countP_cons, List.countP_cons, List.forall_mem_cons, List.forall_mem_cons, hname, Nat.add_comm,
      Nat.add_comm (List.countP _ _)]
    exact (Parameter.Covered.of_eq rfl Iff.rfl).add ih

/-- The list of a map's entries may take the place of the map: it binds a parameter for every name, declared or not. -/
theorem EntitySchema.covered_entries (s : EntitySchema) (es : List (String × Value)) :
    Parameter.Covered ((es.map (·.1)).countP (Schema.entity s).declares)
      (Condition.parameterCounts (.entity s) (es.map fun e => .expr ⟨.field e.1, .eq, .value e.2⟩))
      (∀ name ∈ es.map (·.1), (Schema.entity s).declares name = true)
      (Condition.checkItems (.entity s) (es.map fun e => .expr ⟨.field e.1, .eq, .value e.2⟩) = .ok ()) := by
  induction es with
  | nil => exact .of_eq rfl ⟨fun _ _ h => absurd h List.not_mem_nil, fun _ => rfl⟩
  | cons e es ih =>
    have hone : Parameter.Covered (if (Schema.entity s).declares e.1 then 1 else 0)
        ((Condition.expr ⟨.field e.1, .eq, .value e.2⟩).parameterCount (.entity s)) ((Schema.entity s).declares e.1 = true)
        ((Condition.expr ⟨.field e.1, .eq, .value e.2⟩).check (.entity s) = .ok ()) := by
      rw [EntitySchema.check_equation_iff, EntitySchema.parameterCount_equation]
      constructor
      · split <;> decide
      · intro h
        rw [if_pos h]
      · exact Iff.rfl
    rw [List.map_cons, List.map_cons, List.countP_cons, List.forall_mem_cons, Condition.parameterCounts, Condition.checkItems,
      seq_eq_ok_iff, Nat.add_comm]
    exact hone.add ih

/-- Giving way is carried from leaves to conditions. -/
theorem EntitySchema.compositional_allows (s : EntitySchema) : Condition.Compositional s.Allows where
  raw text := .of_eq rfl Iff.rfl
  expr := by
    intro left left' right right' op hl hr
    unfold EntitySchema.Allows
    rw [Condition.parameterCount, Condition.parameterCount, Condition.check, Condition.check, seq_eq_ok_iff,
      seq_eq_ok_iff]
    exact (EntitySchema.covered_operand hl).add (EntitySchema.covered_operand hr)
  list := by
    intro items items' op h
    unfold EntitySchema.Allows
    rw [Condition.parameterCount, Condition.parameterCount, Condition.check, Condition.check]
    exact EntitySchema.covered_items h
  fieldMap := by
    intro m answers h
    obtain ⟨hcount, haccepted⟩ := FieldMap.parameters_of_perm (List.Perm.refl m.fields.names) s
    unfold EntitySchema.Allows
    rw [Condition.parameterCount, Condition.check, hcount, haccepted]
    rcases FieldMap.ofAnswers_cases m.operator answers with hlist | ⟨equations, hnodup, rfl, hmap⟩
    -- a list binds what each answer binds, also where the map left the name out
    · have hentries : List.Forall₂ s.Allows (m.fields.entries.map fun e => .expr ⟨.field e.1, .eq, .value e.2⟩) answers := by
        rw [← m.map_expr_leaves, List.forall₂_map_left_iff]
        exact h
      rw [hlist, Condition.parameterCount, Condition.check]
      exact (s.covered_entries m.fields.entries).trans (EntitySchema.covered_items hentries)
    -- a map of the answers, in whatever order, leaves out as many names as the map did
    · have hperm : (Bindings.ofList equations).names.Perm (equations.map (·.1)) := (Entries.perm_ofList hnodup).map _
      obtain ⟨hcount', haccepted'⟩ := (FieldMap.mk (.ofList equations) m.operator).parameters_of_perm hperm s
      rw [hmap, Condition.ofFields, Condition.parameterCount, Condition.check, hcount', haccepted']
      rw [FieldMap.leaves, List.forall₂_map_left_iff, List.forall₂_map_right_iff] at h
      have hnames : List.Forall₂ (fun name other => (Schema.entity s).declares other = (Schema.entity s).declares name)
          (m.fields.entries.map (·.1)) (equations.map (·.1)) := by
        rw [List.forall₂_map_left_iff, List.forall₂_map_right_iff]
        refine h.imp fun e e' hallows => ?_
        rw [Bool.eq_iff_iff, ← s.check_equation_iff, ← s.check_equation_iff]
        exact hallows.accepted_iff
      exact EntitySchema.covered_names hnames
  same := by
    intro c new new' h hsame
    exact h.trans (EntitySchema.allows_of_shape_eq (Condition.shape_eq_of_same hsame))

end Allows

/-! ## Revisions -/

/-- An answer is a revision of a leaf: an expression with the same fields in the same places and a value wherever the leaf has one,
whatever its operator and its values are. -/
def Condition.Revises (answer : Condition) (e : Expr) : Prop :=
  ∃ e' : Expr, answer = .expr e' ∧ e'.left.shape = e.left.shape ∧ e'.right.shape = e.right.shape

/-- A revision with the operator of its leaf has the shape of the leaf. -/
theorem Condition.Revises.shape_eq {answer : Condition} {e : Expr} (h : answer.Revises e)
    (hop : ∀ e', answer = .expr e' → e'.operator = e.operator) : answer.shape = (Condition.expr e).shape := by
  obtain ⟨⟨left, op, right⟩, rfl, hl, hr⟩ := h
  obtain ⟨oldLeft, oldOp, oldRight⟩ := e
  obtain rfl : op = oldOp := hop _ rfl
  rw [Condition.shape, Condition.shape, hl, hr]

/-- A leaf may give way to a revision of it. -/
theorem Condition.Revises.allows {answer : Condition} {e : Expr} (h : answer.Revises e) (s : EntitySchema) :
    s.Allows (.expr e) answer := by
  obtain ⟨⟨left, op, right⟩, rfl, hl, hr⟩ := h
  obtain ⟨oldLeft, oldOp, oldRight⟩ := e
  have hrevised : (Condition.expr ⟨left, oldOp, right⟩).Revises ⟨oldLeft, oldOp, oldRight⟩ := ⟨_, rfl, hl, hr⟩
  have hshape := hrevised.shape_eq fun e' he' => by cases he'; rfl
  -- neither the number of parameters nor acceptance depends on the operator
  refine (EntitySchema.allows_of_shape_eq hshape).trans (.of_eq ?_ ?_)
  · rw [Condition.parameterCount, Condition.parameterCount]
  · rw [Condition.check, Condition.check]

/-- Let a function answer for every leaf of a condition with a revision of it, whatever state it keeps. Then replacing the leaves
gives a condition that has at least as many parameters under every entity schema, and as many where the schema accepts the
condition; and it is accepted exactly when the condition is. If the function keeps the operator of every leaf as well, the two have
the same clause in every dialect and with every comparison for the fields of maps, and their parameters are for the same fields,
place by place. -/
theorem Condition.mapLeaves_revised {σ : Type} (c : Condition) (s : EntitySchema) (f : Expr → StateM σ Condition)
    (hf : ∀ e ∈ c.leaves, ∀ st, ((f e).run st).1.Revises e) (st : σ) :
    c.parameterCount (.entity s) ≤ ((c.mapLeaves f).run st).1.parameterCount (.entity s) ∧
    (c.validate (.entity s) = .ok () →
      ((c.mapLeaves f).run st).1.parameterCount (.entity s) = c.parameterCount (.entity s)) ∧
    (((c.mapLeaves f).run st).1.validate (.entity s) = .ok () ↔ c.validate (.entity s) = .ok ()) ∧
    ((∀ e ∈ c.leaves, ∀ st e', ((f e).run st).1 = .expr e' → e'.operator = e.operator) →
      ∀ (comparison : Operator) (d : Dialect),
        (((c.mapLeaves f).run st).1.clauseWith (.entity s) comparison d).1 = (c.clauseWith (.entity s) comparison d).1 ∧
        (((c.mapLeaves f).run st).1.clauseWith (.entity s) comparison d).2.map (·.field) =
          (c.clauseWith (.entity s) comparison d).2.map (·.field)) := by
  have hallows : s.Allows c ((c.mapLeaves f).run st).1 :=
    s.compositional_allows.mapLeaves c (fun e he st => (hf e he st).allows s) st
  rw [Condition.validate_eq_check, Condition.validate_eq_check]
  refine ⟨hallows.le, hallows.eq, hallows.accepted_iff, fun hop comparison d => ?_⟩
  have hshape : ((c.mapLeaves f).run st).1.shape = c.shape :=
    Condition.compositional_shape.mapLeaves c (fun e he st => (hf e he st).shape_eq (hop e he st)) st
  obtain ⟨hclause, hfields⟩ := c.clauseWith_shape (.entity s) comparison d
  obtain ⟨hclause', hfields'⟩ := ((c.mapLeaves f).run st).1.clauseWith_shape (.entity s) comparison d
  rw [hshape] at hclause' hfields'
  exact ⟨hclause'.symm.trans hclause, hfields'.symm.trans hfields⟩

/-- A map beside a value compared with a field, and a function that gives every value a number, the next for each leaf. With another
operator for every leaf the map becomes a list, which is accepted like the map and has as many parameters; if the operators stay, the
clause does. -/
theorem Condition.mapLeaves_revised_numbered :
    ∃ s, EntitySchema.ofFields "t" [⟨"b", .int⟩, ⟨"a", .int⟩] = .ok s ∧
      let c : Condition := .list [.ofFields .and [("a", .null), ("b", .null)], .expr ⟨.value .null, .lt, .field "b"⟩] .or
      let number (n : Nat) (o : Operand) : Operand := if o.value?.isSome then .value (.uint (.ofNat n)) else o
      let f (op : Operator → Operator) (e : Expr) : StateM Nat Condition := do
        let n ← get
        set (n + 1)
        return .expr ⟨number n e.left, op e.operator, number n e.right⟩
      let raised : Condition := ((c.mapLeaves (f fun _ => .gt)).run 1).1
      let kept : Condition := ((c.mapLeaves (f id)).run 1).1
      (∀ op, ∀ e ∈ c.leaves, ∀ st, ((f op e).run st).1.Revises e) ∧ c.validate (.entity s) = .ok () ∧
      raised.parameterCount (.entity s) = c.parameterCount (.entity s) ∧ raised.validate (.entity s) = .ok () ∧
      ∀ (comparison : Operator) (d : Dialect),
        (kept.clauseWith (.entity s) comparison d).1 = (c.clauseWith (.entity s) comparison d).1 ∧
        (kept.clauseWith (.entity s) comparison d).2.map (·.field) = (c.clauseWith (.entity s) comparison d).2.map (·.field) := by
  refine ⟨_, rfl, ?_⟩
  intro c number f raised kept
  have hnumber : ∀ (n : Nat) (o : Operand), (number n o).shape = o.shape := by
    rintro n (condition | field | value)
    · rfl
    · rfl
    · rfl
  have hf : ∀ op, ∀ e ∈ c.leaves, ∀ st, ((f op e).run st).1.Revises e :=
    fun op e _ st => ⟨_, rfl, hnumber st e.left, hnumber st e.right⟩
  obtain ⟨-, hcount, hvalid, -⟩ := c.mapLeaves_revised _ _ (hf fun _ => .gt) 1
  obtain ⟨-, -, -, hkept⟩ := c.mapLeaves_revised _ _ (hf id) 1
  exact ⟨hf, rfl, hcount rfl, hvalid.2 rfl, hkept fun e _ st e' he' => by cases he'; rfl⟩

/-- A name that is not declared is left out of a map, and bound in the list that other operators make of it. -/
example :
    ∃ s, EntitySchema.ofFields "t" [⟨"a", .int⟩] = .ok s ∧
      let c : Condition := .ofFields .and [("a", .null), ("x", .null)]
      let raised : Condition := Id.run (c.mapLeaves fun e => pure (.expr ⟨e.left, .gt, e.right⟩))
      c.parameterCount (.entity s) = 1 ∧ raised.parameterCount (.entity s) = 2 :=
  ⟨_, rfl, by decide +kernel⟩

end WhereClause
