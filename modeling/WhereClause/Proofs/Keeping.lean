import WhereClause.Condition.Form
import WhereClause.Condition.Nodes
import WhereClause.Proofs.ConditionStorage
import WhereClause.Proofs.Mirrors
import WhereClause.Proofs.Rebuild
import WhereClause.Proofs.Visit

/-!
# Keeping: which answers are lost

Where every answer for the leaves that are decided together counts as unchanged, replacing keeps the leaves and drops the answers:
for a leaf expression its own answer is what counts, for a map those of all its entries. An answer counts as unchanged if it is
the same expression, and expressions can be the same and be written differently, by the sign of a zero in a document
(`Condition.mapLeaves_zeros_text_ne`). So the text that comes of replacing leaves is that of building anew exactly when no answer
is lost in this way (`Condition.text_mapLeaves_eq_iff`).
-/

namespace WhereClause

/-! ## Functions without a state -/

section Pure

variable {m : Type → Type} [Monad m] [LawfulMonad m] (f : Expr → Condition)

mutual

/-- Replacing leaves by a function that keeps no state has no effect. -/
theorem Condition.replace_pure : ∀ c : Condition,
    c.replace (fun e => (pure (f e) : m Condition)) = pure (Id.run (c.replace fun e => pure (f e)))
  | .expr ⟨left, op, right⟩ => by
    rw [Condition.replace, Condition.replace]
    split
    · rw [pure_bind, pure_bind, Id.run_pure]
    · rw [Operand.replace_pure left, Operand.replace_pure right, pure_bind, pure_bind]
      split
      · rename_i h
        exact congrArg pure (if_pos h).symm
      · rename_i h
        exact congrArg pure (if_neg h).symm
  | .list items op => by
    rw [Condition.replace, Condition.replace, Condition.replaceItems_pure items, pure_bind]
    rfl
  | .fieldMap fields => by
    rw [Condition.replace, Condition.replace, FieldMap.replace, FieldMap.replace, List.mapM_pure, List.mapM_pure, pure_bind,
      pure_bind]
    split
    · rfl
    · rfl
  | .raw text => by rw [Condition.replace, Condition.replace, Id.run_pure]

theorem Condition.replaceItems_pure : ∀ cs : List Condition,
    Condition.replaceItems (fun e => (pure (f e) : m Condition)) cs =
      pure (Id.run (Condition.replaceItems (fun e => pure (f e)) cs))
  | [] => by rw [Condition.replaceItems, Condition.replaceItems, Id.run_pure]
  | c :: cs => by
    rw [Condition.replaceItems, Condition.replaceItems, Condition.replace_pure c, Condition.replaceItems_pure cs, pure_bind,
      pure_bind]
    rfl

theorem Operand.replace_pure : ∀ o : Operand,
    o.replace (fun e => (pure (f e) : m Condition)) = pure (Id.run (o.replace fun e => pure (f e)))
  | .condition c => by
    rw [Operand.replace, Operand.replace, Condition.replace_pure c, pure_bind]
    rfl
  | .field name => by rw [Operand.replace, Operand.replace, Id.run_pure]
  | .value v => by rw [Operand.replace, Operand.replace, Id.run_pure]

end

mutual

/-- Building anew with a function that keeps no state has no effect. -/
theorem Condition.rebuild_pure : ∀ c : Condition,
    c.rebuild (fun e => (pure (f e) : m Condition)) = pure (Id.run (c.rebuild fun e => pure (f e)))
  | .expr ⟨left, op, right⟩ => by
    rw [Condition.rebuild, Condition.rebuild]
    split
    · rw [Id.run_pure]
    · rw [Operand.rebuild_pure left, Operand.rebuild_pure right, pure_bind, pure_bind]
      rfl
  | .list items op => by
    rw [Condition.rebuild, Condition.rebuild, Condition.rebuildItems_pure items, pure_bind]
    rfl
  | .fieldMap fields => by
    rw [Condition.rebuild, Condition.rebuild, List.mapM_pure, List.mapM_pure, pure_bind, pure_bind, Id.run_pure]
  | .raw text => by rw [Condition.rebuild, Condition.rebuild, Id.run_pure]

theorem Condition.rebuildItems_pure : ∀ cs : List Condition,
    Condition.rebuildItems (fun e => (pure (f e) : m Condition)) cs =
      pure (Id.run (Condition.rebuildItems (fun e => pure (f e)) cs))
  | [] => by rw [Condition.rebuildItems, Condition.rebuildItems, Id.run_pure]
  | c :: cs => by
    rw [Condition.rebuildItems, Condition.rebuildItems, Condition.rebuild_pure c, Condition.rebuildItems_pure cs, pure_bind,
      pure_bind]
    rfl

theorem Operand.rebuild_pure : ∀ o : Operand,
    o.rebuild (fun e => (pure (f e) : m Condition)) = pure (Id.run (o.rebuild fun e => pure (f e)))
  | .condition c => by
    rw [Operand.rebuild, Operand.rebuild, Condition.rebuild_pure c, pure_bind]
    rfl
  | .field name => by rw [Operand.rebuild, Operand.rebuild, Id.run_pure]
  | .value v => by rw [Operand.rebuild, Operand.rebuild, Id.run_pure]

end

end Pure

/-- Replacing leaves by a function that keeps no state gives what is the same as building anew with it. -/
theorem Condition.same_replace (f : Expr → Condition) (c : Condition) :
    ((Id.run (c.replace fun e => pure (f e))).getD c).same (Id.run (c.rebuild fun e => pure (f e))) = true := by
  have h := (c.agree_replace (fun e => (pure (f e) : StateM Unit Condition)) ()).1
  rwa [Condition.replace_pure, Condition.rebuild_pure] at h

/-- Conditions in which nothing is noticed to have changed are as they were. -/
theorem Condition.replaceItems_eq_of_unchanged (f : Expr → Condition) (cs : List Condition)
    (h : (Id.run (Condition.replaceItems (fun e => pure (f e)) cs)).1 = false) :
    (Id.run (Condition.replaceItems (fun e => pure (f e)) cs)).2 = cs := by
  have hagree := (Condition.agree_replaceItems (fun e => (pure (f e) : StateM Unit Condition)) cs ()).1
  rw [Condition.replaceItems_pure] at hagree
  exact hagree.2 h

/-! ## What is decided together -/

mutual

/-- The leaves of a condition, those together of which replacing decides together whether they are unchanged: a leaf expression by
itself, and all the entries of a map. -/
def Condition.leafGroups : Condition → List (List Expr)
  | .expr ⟨left, op, right⟩ =>
    if (Expr.mk left op right).isLeaf then [[⟨left, op, right⟩]] else left.leafGroups ++ right.leafGroups
  | .list items _ => Condition.leafGroupsOf items
  | .fieldMap m => [m.leaves]
  | .raw _ => []

/-- The leaves of conditions one after the other, those together that are decided together. -/
def Condition.leafGroupsOf : List Condition → List (List Expr)
  | [] => []
  | c :: cs => c.leafGroups ++ Condition.leafGroupsOf cs

/-- The leaves of the condition that an operand is, those together that are decided together. -/
def Operand.leafGroups : Operand → List (List Expr)
  | .condition c => c.leafGroups
  | .field _ => []
  | .value _ => []

end

/-- Nothing is lost of the answers for some leaves by keeping the leaves where no answer counts as a change. -/
def Expr.KeepsAnswers (f : Expr → Condition) (group : List Expr) : Prop :=
  (∀ e ∈ group, (f e).keeps e = true) → ∀ e ∈ group, f e = .expr e

mutual

/-- The groups of a condition, put one after the other, are its leaves. -/
theorem Condition.flatten_leafGroups : ∀ c : Condition, c.leafGroups.flatten = c.leaves
  | .expr ⟨left, op, right⟩ => by
    rw [Condition.leafGroups, Condition.leaves]
    split
    · rfl
    · rw [List.flatten_append, Operand.flatten_leafGroups left, Operand.flatten_leafGroups right]
  | .list items op => by
    rw [Condition.leafGroups, Condition.leaves]
    exact Condition.flatten_leafGroupsOf items
  | .fieldMap m => by
    rw [Condition.leafGroups, Condition.leaves, List.flatten_cons, List.flatten_nil, List.append_nil]
  | .raw text => by
    rw [Condition.leafGroups, Condition.leaves]
    rfl

theorem Condition.flatten_leafGroupsOf : ∀ cs : List Condition,
    (Condition.leafGroupsOf cs).flatten = Condition.leavesOf cs
  | [] => by
    rw [Condition.leafGroupsOf, Condition.leavesOf]
    rfl
  | c :: cs => by
    rw [Condition.leafGroupsOf, Condition.leavesOf, List.flatten_append, Condition.flatten_leafGroups c,
      Condition.flatten_leafGroupsOf cs]

theorem Operand.flatten_leafGroups : ∀ o : Operand, o.leafGroups.flatten = o.leaves
  | .condition c => by
    rw [Operand.leafGroups, Operand.leaves]
    exact Condition.flatten_leafGroups c
  | .field name => by
    rw [Operand.leafGroups, Operand.leaves]
    rfl
  | .value v => by
    rw [Operand.leafGroups, Operand.leaves]
    rfl

end

/-! ## Maps -/

/-- A map of which every answer keeps its entry is the map of the answers just where these are the entries themselves. -/
theorem FieldMap.eq_ofAnswers_iff {m : FieldMap} {answers : List Condition} (hlength : answers.length = m.leaves.length)
    (h : ((answers.zip m.leaves).all fun (answer, leaf) => answer.keeps leaf) = true) :
    Condition.fieldMap m = FieldMap.ofAnswers m.operator answers ↔ answers = m.leaves.map .expr := by
  obtain ⟨fields, hequations, -, hanswers⟩ := FieldMap.ofAnswers_of_keeps hlength h
  rw [hanswers, m.map_expr_leaves]
  constructor
  · intro heq
    have hfields : m.fields = fields := congrArg FieldMap.fields (Condition.fieldMap.inj heq)
    rw [hfields]
    exact Condition.mapM_equation?_eq_some_iff.1 hequations
  · intro heq
    rw [Condition.mapM_equation?_eq_some_iff.2 heq] at hequations
    have hfields : m.fields = fields := Bindings.ext (Option.some.inj hequations)
    rw [← hfields]

/-- The answers for the entries of a map take its place, or the map keeps the answers. -/
theorem FieldMap.getD_replace_eq_rebuild_iff (f : Expr → Condition) (m : FieldMap) :
    (Id.run (m.replace fun e => pure (f e))).getD (.fieldMap m) = Id.run ((Condition.fieldMap m).rebuild fun e => pure (f e)) ↔
      Expr.KeepsAnswers f m.leaves := by
  have hkeeps : (((m.leaves.map f).zip m.leaves).all fun (answer, leaf) => answer.keeps leaf) = true ↔
      ∀ e ∈ m.leaves, (f e).keeps e = true := by
    rw [← List.map_prod_right_eq_zip, List.all_map, List.all_eq_true]
    rfl
  rw [FieldMap.replace, Condition.rebuild, List.mapM_pure, pure_bind, pure_bind]
  split
  · rename_i h
    -- no answer of the map counts as a change, so that all of them are dropped together
    have hiff := FieldMap.eq_ofAnswers_iff (List.length_map f) h
    rw [Id.run_pure, Id.run_pure, Option.getD_none, hiff, List.map_inj_left]
    exact ⟨fun heq _ => heq, fun heq => heq (hkeeps.1 h)⟩
  · rename_i h
    rw [Id.run_pure, Id.run_pure, Option.getD_some, FieldMap.rebuilt_eq_ofAnswers]
    exact ⟨fun _ hall => absurd (hkeeps.2 hall) h, fun _ => rfl⟩

/-! ## Conditions -/

section Parts

variable (f : Expr → Condition)

/-- An expression with a condition on one side is replaced side by side. -/
theorem Condition.getD_replace_expr {left right : Operand} {op : Operator} (h : ¬ (Expr.mk left op right).isLeaf = true) :
    (Id.run ((Condition.expr ⟨left, op, right⟩).replace fun e => pure (f e))).getD (.expr ⟨left, op, right⟩) =
      .expr ⟨(Id.run (left.replace fun e => pure (f e))).getD left, op,
        (Id.run (right.replace fun e => pure (f e))).getD right⟩ := by
  rw [Condition.replace, if_neg h, Id.run_bind, Id.run_bind]
  split
  · rename_i hnone
    rw [Bool.and_eq_true, Option.isNone_iff_eq_none, Option.isNone_iff_eq_none] at hnone
    rw [hnone.1, hnone.2]
    rfl
  · rfl

/-- A list is replaced item by item. -/
theorem Condition.getD_replace_list (items : List Condition) (op : Operator) :
    (Id.run ((Condition.list items op).replace fun e => pure (f e))).getD (.list items op) =
      .list (Id.run (Condition.replaceItems (fun e => pure (f e)) items)).2 op := by
  have hunchanged := Condition.replaceItems_eq_of_unchanged f items
  rw [Condition.replace, Id.run_bind, Id.run_pure]
  split
  · rfl
  · rename_i h
    rw [hunchanged (Bool.eq_false_iff.2 h), Option.getD_none]

/-- A nested condition is replaced. -/
theorem Operand.getD_replace_condition (c : Condition) :
    (Id.run ((Operand.condition c).replace fun e => pure (f e))).getD (.condition c) =
      .condition ((Id.run (c.replace fun e => pure (f e))).getD c) := by
  rw [Operand.replace, Id.run_bind, Id.run_pure]
  cases Id.run (c.replace fun e => pure (f e)) with
  | none => rfl
  | some new => rfl

end Parts

mutual

/-- Replacing the leaves of a condition gives just what building it anew gives where the answers are kept. -/
theorem Condition.getD_replace_eq_rebuild_iff (f : Expr → Condition) : ∀ c : Condition,
    (Id.run (c.replace fun e => pure (f e))).getD c = Id.run (c.rebuild fun e => pure (f e)) ↔
      ∀ group ∈ c.leafGroups, Expr.KeepsAnswers f group
  | .expr ⟨left, op, right⟩ => by
    by_cases hleaf : (Expr.mk left op right).isLeaf = true
    · rw [Condition.replace, Condition.rebuild, Condition.leafGroups, if_pos hleaf, if_pos hleaf, if_pos hleaf, pure_bind,
        Id.run_pure, Id.run_pure, List.forall_mem_singleton]
      simp only [Expr.KeepsAnswers, List.forall_mem_singleton]
      split
      · rename_i h
        exact ⟨fun heq _ => heq.symm, fun heq => (heq h).symm⟩
      · rename_i h
        exact ⟨fun _ hkeeps => absurd hkeeps h, fun _ => rfl⟩
    · have hl := Operand.getD_replace_eq_rebuild_iff f left
      have hr := Operand.getD_replace_eq_rebuild_iff f right
      rw [Condition.getD_replace_expr f hleaf, Condition.rebuild, Condition.leafGroups, if_neg hleaf, if_neg hleaf,
        List.forall_mem_append, ← hl, ← hr]
      constructor
      · intro heq
        obtain ⟨hleft, -, hright⟩ := Expr.mk.inj (Condition.expr.inj heq)
        exact ⟨hleft, hright⟩
      · rintro ⟨hleft, hright⟩
        rw [hleft, hright]
        rfl
  | .list items op => by
    have hitems := Condition.replaceItems_eq_rebuildItems_iff f items
    rw [Condition.getD_replace_list, Condition.rebuild, Condition.leafGroups, ← hitems]
    constructor
    · intro heq
      exact (Condition.list.inj heq).1
    · intro heq
      rw [heq]
      rfl
  | .fieldMap m => by
    rw [Condition.replace, Condition.leafGroups, m.getD_replace_eq_rebuild_iff f, List.forall_mem_singleton]
  | .raw text => by
    rw [Condition.replace, Condition.rebuild, Condition.leafGroups]
    exact ⟨fun _ => List.forall_mem_nil _, fun _ => rfl⟩

theorem Condition.replaceItems_eq_rebuildItems_iff (f : Expr → Condition) : ∀ cs : List Condition,
    (Id.run (Condition.replaceItems (fun e => pure (f e)) cs)).2 = Id.run (Condition.rebuildItems (fun e => pure (f e)) cs) ↔
      ∀ group ∈ Condition.leafGroupsOf cs, Expr.KeepsAnswers f group
  | [] => by
    rw [Condition.replaceItems, Condition.rebuildItems, Condition.leafGroupsOf]
    exact ⟨fun _ => List.forall_mem_nil _, fun _ => rfl⟩
  | c :: cs => by
    have hc := Condition.getD_replace_eq_rebuild_iff f c
    have hcs := Condition.replaceItems_eq_rebuildItems_iff f cs
    rw [Condition.replaceItems, Condition.rebuildItems, Condition.leafGroupsOf, List.forall_mem_append, ← hc, ← hcs]
    exact List.cons_eq_cons

theorem Operand.getD_replace_eq_rebuild_iff (f : Expr → Condition) : ∀ o : Operand,
    (Id.run (o.replace fun e => pure (f e))).getD o = Id.run (o.rebuild fun e => pure (f e)) ↔
      ∀ group ∈ o.leafGroups, Expr.KeepsAnswers f group
  | .condition c => by
    have hc := Condition.getD_replace_eq_rebuild_iff f c
    rw [Operand.getD_replace_condition, Operand.rebuild, Operand.leafGroups, ← hc]
    constructor
    · intro heq
      exact Operand.condition.inj heq
    · intro heq
      rw [heq]
      rfl
  | .field name => by
    rw [Operand.replace, Operand.rebuild, Operand.leafGroups]
    exact ⟨fun _ => List.forall_mem_nil _, fun _ => rfl⟩
  | .value v => by
    rw [Operand.replace, Operand.rebuild, Operand.leafGroups]
    exact ⟨fun _ => List.forall_mem_nil _, fun _ => rfl⟩

end

/-! ## Answers that differ -/

/-- Operands that are the same and no conditions are identical, unless one has the zero whose sign is written. -/
theorem Operand.eq_of_same {o p : Operand} (h : o.same p = true) (hcondition : p.condition? = none)
    (ho : ∀ v ∈ o.value?.toList, v.hasNegativeZero = false) (hp : ∀ v ∈ p.value?.toList, v.hasNegativeZero = false) :
    o = p := by
  cases p with
  | condition d => nomatch hcondition
  | field name =>
    cases o with
    | field other => exact congrArg Operand.field (by simpa only [Operand.same, beq_iff_eq] using h)
    | _ => simp [Operand.same] at h
  | value w =>
    cases o with
    | value v =>
      rw [Operand.same] at h
      rw [Value.eq_of_same h (ho v (.head _)) (hp w (.head _))]
    | _ => simp [Operand.same] at h

/-- An answer that keeps a leaf is the leaf, unless one of them has the zero whose sign is written. -/
theorem Condition.eq_of_keeps {answer : Condition} {e : Expr} (h : answer.keeps e = true) (hleaf : e.isLeaf = true)
    (hvalues : ∀ v ∈ e.values ++ answer.values, v.hasNegativeZero = false) : answer = .expr e := by
  cases answer with
  | expr g =>
    obtain ⟨left, op, right⟩ := g
    obtain ⟨left', op', right'⟩ := e
    obtain ⟨hl, hr⟩ := (Expr.isLeaf_iff _).1 hleaf
    simp only [Condition.keeps, Expr.same, Bool.and_eq_true, beq_iff_eq] at h
    obtain ⟨⟨hleft, rfl⟩, hright⟩ := h
    have hown : ∀ v ∈ left.value?.toList ++ right.value?.toList, v.hasNegativeZero = false := by
      intro v hv
      refine hvalues v (List.mem_append_right _ ?_)
      rw [Condition.values, Condition.nodes, List.flatMap_cons]
      exact List.mem_append_left _ hv
    have hthose : ∀ v ∈ left'.value?.toList ++ right'.value?.toList, v.hasNegativeZero = false :=
      fun v hv => hvalues v (List.mem_append_left _ hv)
    rw [List.forall_mem_append] at hown hthose
    rw [Operand.eq_of_same hleft hl hown.1 hthose.1, Operand.eq_of_same hright hr hown.2 hthose.2]
  | _ => simp [Condition.keeps] at h

/-- A condition with its leaves replaced is written as the condition built anew is exactly when, wherever no answer for the leaves
decided together counts as a change, the answers are those leaves. That is so for all leaves and answers without the zero whose
sign is written. -/
theorem Condition.text_mapLeaves_eq_iff (f : Expr → Condition) (c : Condition) :
    ((Id.run (c.mapLeaves fun e => pure (f e))).toJson.text = (Id.run (c.rebuild fun e => pure (f e))).toJson.text ↔
      ∀ group ∈ c.leafGroups, Expr.KeepsAnswers f group) ∧
    ((∀ e ∈ c.leaves, ∀ v ∈ e.values ++ (f e).values, v.hasNegativeZero = false) →
      Id.run (c.mapLeaves fun e => pure (f e)) = Id.run (c.rebuild fun e => pure (f e))) := by
  -- the two are always the same condition, so that their texts are equal only if they are identical
  have hmap : Id.run (c.mapLeaves fun e => pure (f e)) = (Id.run (c.replace fun e => pure (f e))).getD c := rfl
  have hiff := Condition.getD_replace_eq_rebuild_iff f c
  rw [hmap]
  refine ⟨(Condition.text_eq_iff_of_same (Condition.same_replace f c)).trans hiff, fun hvalues => hiff.2 ?_⟩
  intro group hgroup hkeeps e he
  have hleaf : e ∈ c.leaves := by
    rw [← Condition.flatten_leafGroups]
    exact List.mem_flatten.2 ⟨group, hgroup, he⟩
  exact Condition.eq_of_keeps (hkeeps e he) (Condition.isLeaf_of_mem_leaves hleaf) (hvalues e hleaf)

/-- In a map of two fields, the sign of a zero given to the one is written if the other is given a new value, and so is a new
value in a map of which no answer has that sign. -/
theorem Condition.text_mapLeaves_eq_iff_beside :
    let zero : Value := .json ⟨.number (.float Double.zero (by decide)), rfl⟩
    let negated : Value := .json ⟨.number (.float Double.zero.negate (by decide)), rfl⟩
    let c : Condition := .ofFields .and [("a", zero), ("b", .int 1)]
    let signed (e : Expr) : Condition := if e.field? = some "a" then .eq "a" negated else .eq "b" (.int 2)
    let unsigned (e : Expr) : Condition := if e.field? = some "a" then .eq "a" zero else .eq "b" (.int 2)
    (Id.run (c.mapLeaves fun e => pure (signed e))).toJson.text = (Id.run (c.rebuild fun e => pure (signed e))).toJson.text ∧
      Id.run (c.mapLeaves fun e => pure (unsigned e)) = Id.run (c.rebuild fun e => pure (unsigned e)) := by
  intro zero negated c signed unsigned
  constructor
  · refine (Condition.text_mapLeaves_eq_iff signed c).1.2 fun group hgroup hkeeps => ?_
    obtain rfl : group = c.leaves := List.mem_singleton.1 hgroup
    have hchanged : (c.leaves.all fun e => (signed e).keeps e) = false := by decide +kernel
    rw [List.all_eq_true.2 hkeeps] at hchanged
    nomatch hchanged
  · refine (Condition.text_mapLeaves_eq_iff unsigned c).2 ?_
    decide +kernel

/-- The answer for a leaf with the zero of one sign is lost where it is the leaf with the zero of the other. -/
theorem Condition.mapLeaves_zeros_text_ne :
    let zero : Value := .json ⟨.number (.float Double.zero (by decide)), rfl⟩
    let negated : Value := .json ⟨.number (.float Double.zero.negate (by decide)), rfl⟩
    let c : Condition := .eq "a" zero
    let f (_ : Expr) : Condition := .eq "a" negated
    (∀ v ∈ c.values, v.isFinite = true) ∧ (∀ e, ∀ v ∈ (f e).values, v.isFinite = true) ∧
      (Id.run (c.mapLeaves fun e => pure (f e))).toJson.text = c.toJson.text ∧
      (Id.run (c.rebuild fun e => pure (f e))).toJson.text = (Condition.eq "a" negated).toJson.text ∧
      (Id.run (c.mapLeaves fun e => pure (f e))).toJson.text ≠ (Id.run (c.rebuild fun e => pure (f e))).toJson.text := by
  intro zero negated c f
  have hfinite : ∀ v ∈ c.values, v.isFinite = true := by decide +kernel
  have hanswer : ∀ v ∈ (Condition.eq "a" negated).values, v.isFinite = true := by decide +kernel
  have hkept : (Id.run (c.mapLeaves fun e => pure (f e))).toJson.text = c.toJson.text := by decide +kernel
  have hdiffer : c.toJson.text ≠ (Condition.eq "a" negated).toJson.text := by decide +kernel
  refine ⟨hfinite, fun _ => hanswer, hkept, rfl, ?_⟩
  rw [hkept]
  exact hdiffer

end WhereClause
