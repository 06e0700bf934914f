import Mathlib.Algebra.BigOperators.Group.Multiset.Basic
import Mathlib.Algebra.GroupWithZero.Nat
import Mathlib.Data.Multiset.AddSub
import WhereClause.Proofs.Calls

/-!
# Succession: which leaves come after replacing

Every leaf of a condition is answered once, and the leaves of the answers are what comes after the leaves of the condition: none of
them is lost, and there are no others (`Condition.leaves_mapLeaves`). This is not plain of maps. The answers for the entries of a
map are bound to names again if they are equations, which puts them into another order, and would drop one of two for the same
name if there were two. So order does not count, and the leaves are compared as multisets.

Nor does it count how a leaf is written: where an answer is the same expression as its leaf, it is the leaf that stays.
-/

namespace WhereClause

/-! ## Noting the answers -/

/-- A function with a state that notes, beside what it does, the expressions it is called on, each with its answer. -/
def Expr.answered {σ α : Type} (f : Expr → StateM σ α) (e : Expr) : StateM (List (Expr × α) × σ) α := do
  let (noted, st) ← get
  let (answer, st) := (f e).run st
  set (noted ++ [(e, answer)], st)
  return answer

/-- A function that is called on expressions one after the other, and notes its answers, notes these expressions with the answers
that it gives without noting, and does the rest as it does without noting. -/
theorem Expr.run_mapM_answered {σ α : Type} (f : Expr → StateM σ α) (es : List Expr) (noted : List (Expr × α)) (st : σ) :
    (es.mapM (Expr.answered f)).run (noted, st) =
      (((es.mapM f).run st).1, noted ++ es.zip ((es.mapM f).run st).1, ((es.mapM f).run st).2) := by
  induction es generalizing noted st with
  | nil =>
    rw [List.mapM_nil, List.mapM_nil, List.zip_nil_left, List.append_nil]
    rfl
  | cons e es ih =>
    let answer := ((f e).run st).1
    let after := ((f e).run st).2
    have hnext : (es.mapM (Expr.answered f)).run (noted ++ [(e, answer)], after) =
        (((es.mapM f).run after).1, noted ++ (e, answer) :: es.zip ((es.mapM f).run after).1,
          ((es.mapM f).run after).2) := by
      rw [ih, List.append_assoc, List.singleton_append]
    rw [List.mapM_cons, List.mapM_cons]
    change (answer :: ((es.mapM (Expr.answered f)).run (noted ++ [(e, answer)], after)).1,
      ((es.mapM (Expr.answered f)).run (noted ++ [(e, answer)], after)).2) = _
    rw [hnext]
    rfl

/-! ## The leaves of conditions that are the same -/

/-- Expressions correspond, in some order, to expressions that are the same. -/
def Expr.Match (es fs : List Expr) : Prop :=
  Multiset.Rel (fun e f => e.same f = true) (es : Multiset Expr) (fs : Multiset Expr)

theorem Expr.match_nil : Expr.Match [] [] := Multiset.Rel.zero

theorem Expr.match_singleton {e f : Expr} (h : e.same f = true) : Expr.Match [e] [f] := by
  have hcons : Multiset.Rel (fun e f => e.same f = true) (e ::ₘ 0) (f ::ₘ 0) := .cons h .zero
  exact hcons

theorem Expr.Match.append {es fs es' fs' : List Expr} (h : Expr.Match es fs) (h' : Expr.Match es' fs') :
    Expr.Match (es ++ es') (fs ++ fs') := by
  unfold Expr.Match
  rw [← Multiset.coe_add, ← Multiset.coe_add]
  exact Multiset.Rel.add h h'

theorem Expr.Match.of_perm {es fs fs' : List Expr} (h : Expr.Match es fs) (hperm : fs.Perm fs') : Expr.Match es fs' := by
  have hcoe : (fs : Multiset Expr) = fs' := Multiset.coe_eq_coe.2 hperm
  unfold Expr.Match
  rw [← hcoe]
  exact h

/-- The entries of maps with values that are the same are leaves that are the same. -/
theorem Value.match_entries_of_same : ∀ {es fs : List (String × Value)}, Value.sameEntries es fs = true →
    Expr.Match (es.map fun e => ⟨.field e.1, .eq, .value e.2⟩) (fs.map fun e => ⟨.field e.1, .eq, .value e.2⟩)
  | [], fs, h => by
    rw [Value.sameEntries_nil_iff] at h
    subst h
    exact Expr.match_nil
  | (name, v) :: es, fs, h => by
    obtain ⟨w, fs, rfl, hv, hes⟩ := Value.sameEntries_cons_iff.1 h
    exact (Expr.match_singleton (Expr.same_equation name hv)).append (Value.match_entries_of_same hes)

mutual

/-- Conditions that are the same have leaves that are the same. -/
theorem Condition.match_leaves_of_same : ∀ {c d : Condition}, c.same d = true → Expr.Match c.leaves d.leaves
  | .expr ⟨left, op, right⟩, d, h => by
    obtain ⟨⟨left', op', right'⟩, rfl, hexpr⟩ := Condition.same_expr_iff.1 h
    obtain ⟨hl, rfl, hr⟩ := Expr.same_iff.1 hexpr
    rw [Condition.leaves, Condition.leaves, Expr.isLeaf_eq_of_same hexpr]
    split
    · exact Expr.match_singleton hexpr
    · exact (Operand.match_leaves_of_same hl).append (Operand.match_leaves_of_same hr)
  | .list items op, d, h => by
    obtain ⟨others, rfl, hitems⟩ := Condition.same_list_iff.1 h
    rw [Condition.leaves, Condition.leaves]
    exact Condition.match_leavesOf_of_same hitems
  | .fieldMap ⟨fields, op⟩, d, h => by
    obtain ⟨others, rfl, hentries⟩ := Condition.same_fieldMap_iff.1 h
    rw [Condition.leaves, Condition.leaves]
    exact Value.match_entries_of_same hentries
  | .raw text, d, h => by
    rw [Condition.same_raw_iff.1 h, Condition.leaves]
    exact Expr.match_nil

theorem Condition.match_leavesOf_of_same : ∀ {cs ds : List Condition}, Condition.sameItems cs ds = true →
    Expr.Match (Condition.leavesOf cs) (Condition.leavesOf ds)
  | [], ds, h => by
    rw [Condition.sameItems_nil_iff.1 h, Condition.leavesOf]
    exact Expr.match_nil
  | c :: cs, ds, h => by
    obtain ⟨d, ds, rfl, hc, hcs⟩ := Condition.sameItems_cons_iff.1 h
    rw [Condition.leavesOf, Condition.leavesOf]
    exact (Condition.match_leaves_of_same hc).append (Condition.match_leavesOf_of_same hcs)

theorem Operand.match_leaves_of_same : ∀ {o p : Operand}, o.same p = true → Expr.Match o.leaves p.leaves
  | .condition c, p, h => by
    obtain ⟨d, rfl, hc⟩ := Operand.same_condition_iff.1 h
    rw [Operand.leaves, Operand.leaves]
    exact Condition.match_leaves_of_same hc
  | .field name, p, h => by
    rw [Operand.same_field_iff.1 h, Operand.leaves]
    exact Expr.match_nil
  | .value v, p, h => by
    obtain ⟨w, rfl, -⟩ := Operand.same_value_iff.1 h
    rw [Operand.leaves, Operand.leaves]
    exact Expr.match_nil

end

/-! ## Replacing -/

/-- The leaves of a condition with its leaves replaced are the leaves of the answers, one answer for each leaf. -/
theorem Condition.match_leaves_mapLeaves {σ : Type} (f : Expr → StateM σ Condition) (c : Condition) (st : σ) :
    Expr.Match ((c.mapLeaves f).run st).1.leaves (((c.leaves.mapM f).run st).1.flatMap Condition.leaves) := by
  have hsame : ((c.mapLeaves f).run st).1.same ((c.rebuild f).run st).1 = true := (c.agree_replace f st).1
  exact (Condition.match_leaves_of_same hsame).of_perm (c.agree_rebuild_leaves f st).1

/-- The leaves of conditions one after the other are, as a multiset, the sum of the leaves of each. -/
theorem Condition.coe_flatMap_leaves (cs : List Condition) :
    (cs.flatMap Condition.leaves : Multiset Expr) = (cs.map fun c => (c.visited : Multiset Expr)).sum := by
  induction cs with
  | nil => rfl
  | cons c cs ih => rw [List.flatMap_cons, ← Multiset.coe_add, ih, List.map_cons, List.sum_cons, Condition.visited_eq_leaves]

/-- Whatever state a function keeps and whatever it answers, it is called once on each leaf of a condition, and when every leaf is
replaced by its answer, a test on every leaf of the result is run on just the leaves of the answers, all of them and each as often
as it occurs, up to their order and to the sameness of expressions. So the result has as many leaves as the answers have
together. -/
theorem Condition.leaves_mapLeaves {σ : Type} (c : Condition) (f : Expr → StateM σ Condition) (st : σ) :
    ∃ answered : List (Expr × Condition),
      ((c.mapLeaves (Expr.answered f)).run ([], st)).2 = (answered, ((c.mapLeaves f).run st).2) ∧
      answered.map (·.1) = c.visited ∧
      Multiset.Rel (fun e e' => e.same e' = true) (((c.mapLeaves f).run st).1.visited : Multiset Expr)
        (answered.map fun a => (a.2.visited : Multiset Expr)).sum ∧
      ((c.mapLeaves f).run st).1.leafCount = (answered.map fun a => a.2.leafCount).sum := by
  have hlength : ((c.leaves.mapM f).run st).1.length = c.leaves.length := ((Agree.mapM f c.leaves) st).1.2
  generalize hanswers : ((c.leaves.mapM f).run st).1 = answers at hlength
  have hzip : (c.leaves.zip answers).map (·.2) = answers := List.map_snd_zip (Nat.le_of_eq hlength)
  have hmatch := c.match_leaves_mapLeaves f st
  rw [hanswers] at hmatch
  refine ⟨c.leaves.zip answers, ?_, ?_, ?_, ?_⟩
  · rw [c.state_mapLeaves (Expr.answered f), Expr.run_mapM_answered, List.nil_append, hanswers, c.state_mapLeaves f]
  · rw [List.map_fst_zip (Nat.le_of_eq hlength.symm), Condition.visited_eq_leaves]
  · have hsum := Condition.coe_flatMap_leaves answers
    rw [← hzip, List.map_map] at hsum
    rw [Condition.visited_eq_leaves]
    rw [← hzip] at hmatch
    exact hsum ▸ hmatch
  · have hcard := Multiset.card_eq_card_of_rel hmatch
    have hcount : (answers.map Condition.leafCount).sum = (answers.flatMap Condition.leaves).length := by
      rw [List.length_flatMap]
      exact congrArg List.sum (List.map_congr_left fun answer _ => answer.leafCount_eq_length)
    rw [Multiset.coe_card, Multiset.coe_card, ← hcount, ← Condition.leafCount_eq_length] at hcard
    rw [hcard, ← hzip, List.map_map, hzip]
    rfl

/-- Two entries renamed to one name stay two leaves: the map of them becomes a list. -/
example :
    let c : Condition := .ofFields .and [("a", .int 1), ("b", .int 2)]
    let new : Condition := Id.run (c.mapLeaves fun e => pure (.expr ⟨.field "c", .eq, e.right⟩))
    new.kind = .list ∧ new.leafCount = 2 := by
  decide +kernel

end WhereClause
