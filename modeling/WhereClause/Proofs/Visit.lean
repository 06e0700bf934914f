import WhereClause.Condition.Leaves

/-!
# Visit: a test run on every leaf

A test is run on the leaves of a condition one after the other, whatever it found of the leaves before and whatever effects it
has (`Condition.allLeaves_eq_testEach`). A test that notes what it is run on so notes the leaves
(`Condition.visited_eq_leaves`). Each of them has no condition on either side (`Condition.isLeaf_of_mem_leaves`).
-/

namespace WhereClause

/-- A test run on expressions after others is run on the others first, and on these in any case. -/
theorem Expr.testEach_append {m : Type → Type} [Monad m] [LawfulMonad m] (p : Expr → m Bool) (es fs : List Expr) :
    Expr.testEach p (es ++ fs) = do
      let here ← Expr.testEach p es
      let there ← Expr.testEach p fs
      return here && there := by
  induction es with
  | nil => simp only [List.nil_append, Expr.testEach, pure_bind, Bool.true_and, bind_pure]
  | cons e es ih => simp only [List.cons_append, Expr.testEach, ih, bind_assoc, pure_bind, Bool.and_assoc]

mutual

/-- A test run on every leaf of a condition is run on its leaves one after the other. -/
theorem Condition.allLeaves_eq_testEach {m : Type → Type} [Monad m] [LawfulMonad m] (p : Expr → m Bool) : ∀ c : Condition,
    c.allLeaves p = Expr.testEach p c.leaves
  | .expr ⟨left, op, right⟩ => by
    rw [Condition.allLeaves, Condition.leaves]
    split
    · simp [Expr.testEach]
    · rw [Expr.testEach_append, Operand.allLeaves_eq_testEach p left, Operand.allLeaves_eq_testEach p right]
  | .list items op => by
    rw [Condition.allLeaves, Condition.leaves]
    exact Condition.allLeavesOf_eq_testEach p items
  | .fieldMap fields => by rw [Condition.allLeaves, Condition.leaves]
  | .raw text => by rw [Condition.allLeaves, Condition.leaves, Expr.testEach]

theorem Condition.allLeavesOf_eq_testEach {m : Type → Type} [Monad m] [LawfulMonad m] (p : Expr → m Bool) :
    ∀ cs : List Condition, Condition.allLeavesOf p cs = Expr.testEach p (Condition.leavesOf cs)
  | [] => by rw [Condition.allLeavesOf, Condition.leavesOf, Expr.testEach]
  | c :: cs => by
    rw [Condition.allLeavesOf, Condition.leavesOf, Expr.testEach_append, Condition.allLeaves_eq_testEach p c,
      Condition.allLeavesOf_eq_testEach p cs]

theorem Operand.allLeaves_eq_testEach {m : Type → Type} [Monad m] [LawfulMonad m] (p : Expr → m Bool) : ∀ o : Operand,
    o.allLeaves p = Expr.testEach p o.leaves
  | .condition c => by
    rw [Operand.allLeaves, Operand.leaves]
    exact Condition.allLeaves_eq_testEach p c
  | .field name => by rw [Operand.allLeaves, Operand.leaves, Expr.testEach]
  | .value v => by rw [Operand.allLeaves, Operand.leaves, Expr.testEach]

end

/-- A test that notes each expression it is run on, and that every expression passes. -/
def Expr.note (e : Expr) : StateM (List Expr) Bool := do
  modify (· ++ [e])
  return true

/-- The expressions that a test is run on when it is run on every leaf of a condition, in order. -/
def Condition.visited (c : Condition) : List Expr := ((c.allLeaves Expr.note).run []).2

/-- Noting expressions adds them to those that are noted. -/
theorem Expr.run_testEach_note (es noted : List Expr) : ((Expr.testEach Expr.note es).run noted).2 = noted ++ es := by
  induction es generalizing noted with
  | nil => exact (List.append_nil noted).symm
  | cons e es ih =>
    have hnext : ((Expr.testEach Expr.note (e :: es)).run noted).2 =
        ((Expr.testEach Expr.note es).run (noted ++ [e])).2 := rfl
    rw [hnext, ih, List.append_assoc]
    rfl

/-- What is visited is the leaves. -/
theorem Condition.visited_eq_leaves (c : Condition) : c.visited = c.leaves := by
  unfold Condition.visited
  rw [Condition.allLeaves_eq_testEach, Expr.run_testEach_note, List.nil_append]

/-! ## What a leaf is -/

mutual

/-- The leaves of a condition are leaves. -/
theorem Condition.isLeaf_of_mem_leaves : ∀ {c : Condition} {e : Expr}, e ∈ c.leaves → e.isLeaf = true
  | .expr ⟨left, op, right⟩, e, h => by
    rw [Condition.leaves] at h
    split at h
    · rename_i hleaf
      rwa [List.mem_singleton.1 h]
    · rcases List.mem_append.1 h with h | h
      · exact Operand.isLeaf_of_mem_leaves h
      · exact Operand.isLeaf_of_mem_leaves h
  | .list items op, e, h => by
    rw [Condition.leaves] at h
    exact Condition.isLeaf_of_mem_leavesOf h
  | .fieldMap m, e, h => by
    rw [Condition.leaves] at h
    obtain ⟨i, hi⟩ := List.mem_iff_getElem?.1 h
    obtain ⟨name, v, -, -, rfl⟩ := FieldMap.getElem?_leaves_eq_some_iff.1 hi
    rfl
  | .raw text, e, h => by
    rw [Condition.leaves] at h
    nomatch h

theorem Condition.isLeaf_of_mem_leavesOf : ∀ {cs : List Condition} {e : Expr}, e ∈ Condition.leavesOf cs → e.isLeaf = true
  | [], e, h => by
    rw [Condition.leavesOf] at h
    nomatch h
  | c :: cs, e, h => by
    rw [Condition.leavesOf] at h
    rcases List.mem_append.1 h with h | h
    · exact Condition.isLeaf_of_mem_leaves h
    · exact Condition.isLeaf_of_mem_leavesOf h

theorem Operand.isLeaf_of_mem_leaves : ∀ {o : Operand} {e : Expr}, e ∈ o.leaves → e.isLeaf = true
  | .condition c, e, h => by
    rw [Operand.leaves] at h
    exact Condition.isLeaf_of_mem_leaves h
  | .field name, e, h => by
    rw [Operand.leaves] at h
    nomatch h
  | .value v, e, h => by
    rw [Operand.leaves] at h
    nomatch h

end

end WhereClause
