import WhereClause.Proofs.Rebuild
import WhereClause.Proofs.Visit

/-!
# Calls: what a function on leaves is called on

A test run on every leaf, and a function that answers for every leaf, are called on the leaves of the condition one after the
other, once each, and nothing that they say or do on the way changes what they are called on next (`Condition.calls_leaves`).
The calls are told by noting them: a function with a state is given a second state, the expressions it has been called on
(`Expr.noted`).
-/

namespace WhereClause

/-- A function with a state that notes, beside what it does, the expression it is called on. -/
def Expr.noted {σ α : Type} (f : Expr → StateM σ α) (e : Expr) : StateM (List Expr × σ) α := do
  let (calls, st) ← get
  let (answer, st) := (f e).run st
  set (calls ++ [e], st)
  return answer

/-- A function that is called on expressions one after the other, and notes the calls, notes these expressions and does the rest
as it does without noting. -/
theorem Expr.run_mapM_noted {σ α : Type} (f : Expr → StateM σ α) (es calls : List Expr) (st : σ) :
    (es.mapM (Expr.noted f)).run (calls, st) = (((es.mapM f).run st).1, calls ++ es, ((es.mapM f).run st).2) := by
  induction es generalizing calls st with
  | nil =>
    rw [List.mapM_nil, List.mapM_nil, List.append_nil]
    rfl
  | cons e es ih =>
    rw [List.mapM_cons, List.mapM_cons]
    have hnext : ((es.mapM (Expr.noted f)).run (calls ++ [e], ((f e).run st).2)) =
        (((es.mapM f).run ((f e).run st).2).1, calls ++ e :: es, ((es.mapM f).run ((f e).run st).2).2) := by
      rw [ih, List.append_assoc, List.singleton_append]
    change (((f e).run st).1 :: ((es.mapM (Expr.noted f)).run (calls ++ [e], ((f e).run st).2)).1,
      ((es.mapM (Expr.noted f)).run (calls ++ [e], ((f e).run st).2)).2) = _
    rw [hnext]
    rfl

/-- A test run on each of some expressions gives its verdict on each of them, and holds of all of them if every verdict is
that it holds. -/
theorem Expr.testEach_eq_mapM {m : Type → Type} [Monad m] [LawfulMonad m] (p : Expr → m Bool) (es : List Expr) :
    Expr.testEach p es = (fun verdicts => verdicts.all id) <$> es.mapM p := by
  induction es with
  | nil => rw [Expr.testEach, List.mapM_nil, map_pure, List.all_nil]
  | cons e es ih =>
    rw [Expr.testEach, List.mapM_cons, ih]
    simp only [map_eq_pure_bind, bind_assoc, pure_bind, List.all_cons, id_eq]

/-! ## Answers put together -/

/-- The leaves of conditions one after the other are those of each. -/
theorem Condition.leavesOf_eq_flatMap (cs : List Condition) : Condition.leavesOf cs = cs.flatMap Condition.leaves := by
  induction cs with
  | nil => rw [Condition.leavesOf, List.flatMap_nil]
  | cons c cs ih => rw [Condition.leavesOf, List.flatMap_cons, ih]

/-- Answers for the entries of a map, put together, have the leaves that they have each, in another order if they are a map: a
map of answers is one of as many entries, because no two are for one field. -/
theorem FieldMap.leaves_ofAnswers (op : Operator) (answers : List Condition) :
    (FieldMap.ofAnswers op answers).leaves.Perm (answers.flatMap Condition.leaves) := by
  rcases FieldMap.ofAnswers_cases op answers with hlist | ⟨equations, hnodup, rfl, hmap⟩
  · rw [hlist, Condition.leaves, Condition.leavesOf_eq_flatMap]
  · have hleaf : ∀ e : String × Value, (Condition.expr ⟨.field e.1, .eq, .value e.2⟩).leaves =
        [⟨.field e.1, .eq, .value e.2⟩] := fun e => by rw [Condition.leaves]; rfl
    rw [hmap, List.flatMap_map]
    simp only [hleaf, ← List.map_eq_flatMap]
    rw [Condition.ofFields, Condition.leaves]
    exact (Entries.perm_ofList hnodup).map _

/-! ## Building anew -/

section Building

variable {σ : Type} (f : Expr → StateM σ Condition)

/-- Computations that agree with running a function on expressions, and then on others, agree, one after the other, with running
it on all of them. -/
theorem Agree.mapM_append {α β γ : Type} {R : α → List Condition → Prop} {S : β → List Condition → Prop}
    {T : γ → List Condition → Prop} {x : StateM σ α} {y : StateM σ β} {z : α → β → γ} {es fs : List Expr}
    (hx : Agree R x (es.mapM f)) (hy : Agree S y (fs.mapM f))
    (hz : ∀ a as b bs, R a as → S b bs → T (z a b) (as ++ bs)) :
    Agree T (do let a ← x; let b ← y; return z a b) ((es ++ fs).mapM f) := by
  rw [List.mapM_append]
  exact hx.bind fun a as ha => hy.bind fun b bs hb => .pure (hz a as b bs ha hb)

mutual

/-- Building a condition anew calls the function on its leaves and does nothing else, and what is built has the leaves of what
the function answered. -/
theorem Condition.agree_rebuild_leaves : ∀ c : Condition,
    Agree (fun built answers => built.leaves.Perm (answers.flatMap Condition.leaves)) (c.rebuild f) (c.leaves.mapM f)
  | .expr ⟨left, op, right⟩ => by
    rw [Condition.rebuild, Condition.leaves]
    split
    · rw [List.mapM_cons, List.mapM_nil]
      intro st
      have hone : ∀ answer : Condition, answer.leaves.Perm ([answer].flatMap Condition.leaves) := by
        intro answer
        rw [List.flatMap_singleton]
      exact ⟨hone _, rfl⟩
    · rename_i hleaf
      refine .mapM_append f (Operand.agree_rebuild_leaves left) (Operand.agree_rebuild_leaves right) ?_
      rintro newLeft lefts newRight rights ⟨hl, hlefts⟩ ⟨hr, hrights⟩
      have hnew : ¬ (Expr.mk newLeft op newRight).isLeaf = true := by
        rwa [Expr.isLeaf, hl, hr]
      rw [Condition.leaves, if_neg hnew, List.flatMap_append]
      exact hlefts.append hrights
  | .list items op => by
    rw [Condition.rebuild, Condition.leaves]
    refine (Condition.agree_rebuildItems_leaves items).map fun built answers hbuilt => ?_
    rwa [Condition.leaves, Condition.leavesOf_eq_flatMap]
  | .fieldMap m => by
    rw [Condition.rebuild, Condition.leaves]
    refine (Agree.self (m.leaves.mapM f)).map ?_
    rintro answers _ rfl
    exact FieldMap.leaves_ofAnswers m.operator answers
  | .raw text => by
    rw [Condition.rebuild, Condition.leaves, List.mapM_nil]
    refine .pure ?_
    rw [Condition.leaves, List.flatMap_nil]

theorem Condition.agree_rebuildItems_leaves : ∀ cs : List Condition,
    Agree (fun built answers => (built.flatMap Condition.leaves).Perm (answers.flatMap Condition.leaves))
      (Condition.rebuildItems f cs) ((Condition.leavesOf cs).mapM f)
  | [] => by
    rw [Condition.rebuildItems, Condition.leavesOf, List.mapM_nil]
    exact .pure (List.Perm.refl _)
  | c :: cs => by
    rw [Condition.rebuildItems, Condition.leavesOf]
    refine .mapM_append f (Condition.agree_rebuild_leaves c) (Condition.agree_rebuildItems_leaves cs) ?_
    intro built answers rest others hbuilt hrest
    rw [List.flatMap_cons, List.flatMap_append]
    exact hbuilt.append hrest

/-- Building an operand anew calls the function on its leaves and does nothing else. What is built is a condition if the operand
is one, and has the leaves of what the function answered. -/
theorem Operand.agree_rebuild_leaves : ∀ o : Operand,
    Agree (fun built answers => built.isCondition = o.isCondition ∧ built.leaves.Perm (answers.flatMap Condition.leaves))
      (o.rebuild f) (o.leaves.mapM f)
  | .condition c => by
    rw [Operand.rebuild, Operand.leaves]
    refine (Condition.agree_rebuild_leaves c).map fun built answers hbuilt => ⟨rfl, ?_⟩
    rwa [Operand.leaves]
  | .field name => by
    rw [Operand.rebuild, Operand.leaves, List.mapM_nil]
    refine .pure ⟨rfl, ?_⟩
    rw [Operand.leaves, List.flatMap_nil]
  | .value v => by
    rw [Operand.rebuild, Operand.leaves, List.mapM_nil]
    refine .pure ⟨rfl, ?_⟩
    rw [Operand.leaves, List.flatMap_nil]

end

/-- Replacing the leaves of a condition ends in the state in which calling the function on its leaves, one after the other,
ends. -/
theorem Condition.state_mapLeaves (c : Condition) (st : σ) : ((c.mapLeaves f).run st).2 = ((c.leaves.mapM f).run st).2 :=
  (c.agree_replace f st).2.trans (c.agree_rebuild_leaves f st).2

end Building

/-- The number of leaves is how many leaves there are. -/
theorem Condition.leafCount_eq_length (c : Condition) : c.leafCount = c.leaves.length := by
  have hcount : ∀ (es : List Expr) (n : Nat),
      ((Expr.testEach (fun _ => do modify (· + 1); return true : Expr → StateM Nat Bool) es).run n).2 = n + es.length := by
    intro es
    induction es with
    | nil => exact fun _ => rfl
    | cons e es ih =>
      intro n
      rw [List.length_cons, Nat.add_comm es.length, ← Nat.add_assoc]
      exact ih (n + 1)
  unfold Condition.leafCount
  rw [Condition.allLeaves_eq_testEach, hcount, Nat.zero_add]

/-- Whatever state a test keeps and whatever it finds, a test run on every leaf of a condition is called on the leaves in
their order, once on each, ends in the state in which calling it on them one after the other ends, and holds of all of them
exactly when every verdict was that it holds. Whatever state a function keeps and whatever it answers, replacing every leaf by
its answer calls it on the same leaves in the same order. The number of leaves is the number of calls, of either. -/
theorem Condition.calls_leaves (c : Condition) :
    (∀ (σ : Type) (p : Expr → StateM σ Bool) (st : σ),
      (c.allLeaves p).run st = (((c.leaves.mapM p).run st).1.all id, ((c.leaves.mapM p).run st).2) ∧
      (c.allLeaves (Expr.noted p)).run ([], st) = (((c.allLeaves p).run st).1, c.leaves, ((c.allLeaves p).run st).2) ∧
      c.leafCount = ((c.allLeaves (Expr.noted p)).run ([], st)).2.1.length) ∧
    (∀ (σ : Type) (f : Expr → StateM σ Condition) (st : σ),
      ((c.mapLeaves f).run st).2 = ((c.leaves.mapM f).run st).2 ∧
      ((c.mapLeaves (Expr.noted f)).run ([], st)).2 = (c.leaves, ((c.mapLeaves f).run st).2) ∧
      c.leafCount = ((c.mapLeaves (Expr.noted f)).run ([], st)).2.1.length) := by
  have hrun : ∀ {σ : Type} (p : Expr → StateM σ Bool) (st : σ),
      (c.allLeaves p).run st = (((c.leaves.mapM p).run st).1.all id, ((c.leaves.mapM p).run st).2) := by
    intro σ p st
    rw [Condition.allLeaves_eq_testEach, Expr.testEach_eq_mapM]
    rfl
  refine ⟨fun σ p st => ?_, fun σ f st => ?_⟩
  · have hnoted : (c.allLeaves (Expr.noted p)).run ([], st) =
        (((c.allLeaves p).run st).1, c.leaves, ((c.allLeaves p).run st).2) := by
      rw [hrun (Expr.noted p), hrun p, Expr.run_mapM_noted, List.nil_append]
    refine ⟨hrun p st, hnoted, ?_⟩
    rw [hnoted]
    exact c.leafCount_eq_length
  · have hnoted : ((c.mapLeaves (Expr.noted f)).run ([], st)).2 = (c.leaves, ((c.mapLeaves f).run st).2) := by
      rw [c.state_mapLeaves (Expr.noted f), c.state_mapLeaves f, Expr.run_mapM_noted, List.nil_append]
    refine ⟨c.state_mapLeaves f st, hnoted, ?_⟩
    rw [hnoted]
    exact c.leafCount_eq_length

end WhereClause
