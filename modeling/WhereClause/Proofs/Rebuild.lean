import WhereClause.Condition.Rebuild
import WhereClause.Condition.Replace
import WhereClause.Proofs.Sameness

/-!
# Rebuild: replacing leaves is building anew

Replacing the leaves of a condition keeps what has not changed, and so it has to notice at every node whether something has. The
result is that of building the condition anew, with nothing noticed and nothing kept (`Condition.mapLeaves_same_rebuild`), where
what is kept may differ from what would be built by being written differently and not by being another value. The function that
answers for the leaves may carry a state: it is called on the same leaves in the same order and ends in the same state.

Both are computations with a state, so they are compared by a relation between such computations (`Agree`).
-/

namespace WhereClause

/-! ## Computations that agree -/

/-- Two computations with a state that, started alike, end alike, and with results of which a relation holds. -/
def Agree {σ α β : Type} (R : α → β → Prop) (x : StateM σ α) (y : StateM σ β) : Prop :=
  ∀ st : σ, R (x.run st).1 (y.run st).1 ∧ (x.run st).2 = (y.run st).2

section Agree

variable {σ α β γ δ : Type} {R : α → β → Prop} {S : γ → δ → Prop}

theorem Agree.pure {a : α} {b : β} (h : R a b) : Agree (σ := σ) R (Pure.pure a) (Pure.pure b) := fun _ => ⟨h, rfl⟩

theorem Agree.self (x : StateM σ α) : Agree (· = ·) x x := fun _ => ⟨rfl, rfl⟩

theorem Agree.bind {x : StateM σ α} {y : StateM σ β} {f : α → StateM σ γ} {g : β → StateM σ δ} (h : Agree R x y)
    (hnext : ∀ a b, R a b → Agree S (f a) (g b)) : Agree S (x >>= f) (y >>= g) := by
  intro st
  obtain ⟨hR, hst⟩ := h st
  have hS := hnext _ _ hR (x.run st).2
  change S ((f (x.run st).1).run (x.run st).2).1 ((g (y.run st).1).run (y.run st).2).1 ∧
    ((f (x.run st).1).run (x.run st).2).2 = ((g (y.run st).1).run (y.run st).2).2
  rw [← hst]
  exact hS

theorem Agree.map {x : StateM σ α} {y : StateM σ β} {S : γ → β → Prop} {form : α → γ} (h : Agree R x y)
    (hform : ∀ a b, R a b → S (form a) b) : Agree S (x >>= fun a => Pure.pure (form a)) y :=
  fun st => ⟨hform _ _ (h st).1, (h st).2⟩

/-- A computation and what comes after it agree with the computation alone, if what comes after agrees with doing nothing. -/
theorem Agree.andThen {x : StateM σ α} {f : α → StateM σ γ} {S : γ → α → Prop}
    (hnext : ∀ a, Agree S (f a) (Pure.pure a)) : Agree S (x >>= f) x :=
  fun st => hnext (x.run st).1 (x.run st).2

/-- A computation run on each of some things has as many results as there are things. -/
theorem Agree.mapM (f : α → StateM σ β) (as : List α) :
    Agree (fun bs cs => bs = cs ∧ bs.length = as.length) (as.mapM f) (as.mapM f) := by
  induction as with
  | nil =>
    rw [List.mapM_nil]
    exact .pure ⟨rfl, rfl⟩
  | cons a as ih =>
    rw [List.mapM_cons]
    refine (Agree.self (f a)).bind fun b c hbc => ih.bind fun bs cs hbs => ?_
    subst hbc
    exact .pure ⟨congrArg (b :: ·) hbs.1, congrArg (· + 1) hbs.2⟩

end Agree

/-! ## Answers for the entries of a map -/

/-- An answer is an equation exactly when it is one between a field on the left and a value on the right. -/
theorem Condition.equation?_eq_some_iff {answer : Condition} {e : String × Value} :
    answer.equation? = some e ↔ answer = .expr ⟨.field e.1, .eq, .value e.2⟩ := by
  constructor
  · intro h
    unfold Condition.equation? at h
    split at h
    · cases h
      rfl
    · nomatch h
  · rintro rfl
    rfl

/-- Answers are equations exactly when they are those of the entries that they bind. -/
theorem Condition.mapM_equation?_eq_some_iff : ∀ {answers : List Condition} {entries : List (String × Value)},
    answers.mapM Condition.equation? = some entries ↔
      answers = entries.map fun e => .expr ⟨.field e.1, .eq, .value e.2⟩
  | [], entries => by
    rw [List.mapM_nil]
    constructor
    · intro h
      cases h
      rfl
    · intro h
      rw [List.map_eq_nil_iff.1 h.symm]
      rfl
  | answer :: answers, entries => by
    rw [List.mapM_cons]
    constructor
    · intro h
      obtain ⟨e, he, h⟩ := Option.bind_eq_some_iff.1 h
      obtain ⟨rest, hrest, h⟩ := Option.bind_eq_some_iff.1 h
      cases h
      rw [Condition.equation?_eq_some_iff.1 he, Condition.mapM_equation?_eq_some_iff.1 hrest]
      rfl
    · intro h
      cases entries with
      | nil => nomatch h
      | cons e entries =>
        rw [List.map_cons] at h
        obtain ⟨rfl, rfl⟩ := List.cons.inj h
        rw [Condition.mapM_equation?_eq_some_iff.2 rfl]
        rfl

/-- One more answer bound, if it is an equation for a field that is not bound yet. -/
def FieldMap.addEquation? (fields : Bindings Value) (answer : Condition) : Option (Bindings Value) :=
  match answer.equation? with
  | some (name, v) => if fields.contains name then none else some (fields.insert name v)
  | none => none

/-- Answers are bound one after the other. -/
theorem FieldMap.ofEquations?_eq_foldlM (answers : List Condition) :
    FieldMap.ofEquations? answers = answers.foldlM FieldMap.addEquation? Bindings.empty := by
  unfold FieldMap.ofEquations?
  congr 1
  funext fields c
  unfold FieldMap.addEquation?
  split
  · rfl
  · rename_i h
    have hnone : c.equation? = none := by
      unfold Condition.equation?
      split
      · exact (h _ _ rfl).elim
      · rfl
    rw [hnone]

/-- An answer is bound exactly when it is an equation for a field that is not bound yet. -/
theorem FieldMap.addEquation?_eq_some_iff {fields fields' : Bindings Value} {answer : Condition} :
    FieldMap.addEquation? fields answer = some fields' ↔
      ∃ e, answer.equation? = some e ∧ fields.contains e.1 = false ∧ fields' = fields.insert e.1 e.2 := by
  unfold FieldMap.addEquation?
  cases answer.equation? with
  | none => simp
  | some e =>
    obtain ⟨name, v⟩ := e
    by_cases h : fields.contains name = true
    · simp only [h, if_true]
      constructor
      · exact nofun
      · rintro ⟨e, he, hfree, -⟩
        cases he
        rw [h] at hfree
        nomatch hfree
    · simp only [if_neg h]
      constructor
      · intro hfields
        exact ⟨(name, v), rfl, Bool.eq_false_iff.2 h, (Option.some.inj hfields).symm⟩
      · rintro ⟨e, he, -, rfl⟩
        cases he
        rfl

/-- Answers are bound exactly when they are equations for fields that differ from each other and are not bound yet. -/
theorem FieldMap.foldlM_addEquation?_eq_some_iff {answers : List Condition} {fields fields' : Bindings Value} :
    answers.foldlM FieldMap.addEquation? fields = some fields' ↔
      ∃ equations, answers.mapM Condition.equation? = some equations ∧ (equations.map (·.1)).Nodup ∧
        (∀ e ∈ equations, fields.contains e.1 = false) ∧
        fields' = equations.foldl (fun b e => b.insert e.1 e.2) fields := by
  induction answers generalizing fields with
  | nil =>
    rw [List.foldlM_nil, List.mapM_nil]
    constructor
    · intro h
      exact ⟨[], rfl, List.nodup_nil, fun _ he => absurd he List.not_mem_nil, (Option.some.inj h).symm⟩
    · rintro ⟨equations, h, -, -, rfl⟩
      cases Option.some.inj h
      rfl
  | cons answer answers ih =>
    rw [List.foldlM_cons, List.mapM_cons]
    constructor
    · intro h
      obtain ⟨fields₁, hanswer, hrest⟩ := Option.bind_eq_some_iff.1 h
      obtain ⟨e, he, hfresh, rfl⟩ := FieldMap.addEquation?_eq_some_iff.1 hanswer
      obtain ⟨equations, hequations, hnodup, hfree, hfields⟩ := ih.1 hrest
      have hother : ∀ e' ∈ equations, e'.1 ≠ e.1 ∧ fields.contains e'.1 = false :=
        fun e' he' => (fields.contains_insert e.1 e.2 e'.1).1 (hfree e' he')
      refine ⟨e :: equations, by rw [he, hequations]; rfl, ?_, ?_, hfields⟩
      · rw [List.map_cons, List.nodup_cons]
        refine ⟨fun hmem => ?_, hnodup⟩
        obtain ⟨e', he', heq⟩ := List.mem_map.1 hmem
        exact (hother e' he').1 heq
      · intro e' he'
        rcases List.mem_cons.1 he' with rfl | he'
        · exact hfresh
        · exact (hother e' he').2
    · rintro ⟨equations, h, hnodup, hfree, hfields⟩
      obtain ⟨e, he, h⟩ := Option.bind_eq_some_iff.1 h
      obtain ⟨rest, hrest, h⟩ := Option.bind_eq_some_iff.1 h
      cases Option.some.inj h
      rw [List.map_cons, List.nodup_cons] at hnodup
      refine Option.bind_eq_some_iff.2 ⟨fields.insert e.1 e.2, ?_, ih.2 ⟨rest, hrest, hnodup.2, ?_, hfields⟩⟩
      · exact FieldMap.addEquation?_eq_some_iff.2 ⟨e, he, hfree e List.mem_cons_self, rfl⟩
      · intro e' he'
        refine (fields.contains_insert e.1 e.2 e'.1).2 ⟨fun heq => hnodup.1 ?_, hfree e' (List.mem_cons_of_mem e he')⟩
        exact List.mem_map.2 ⟨e', he', heq⟩

/-- Answers are a map again exactly when they are equations for fields that differ from each other. -/
theorem FieldMap.ofEquations?_eq_some_iff {answers : List Condition} {fields : Bindings Value} :
    FieldMap.ofEquations? answers = some fields ↔
      ∃ equations, answers.mapM Condition.equation? = some equations ∧ (equations.map (·.1)).Nodup ∧
        fields = Bindings.ofList equations := by
  rw [FieldMap.ofEquations?_eq_foldlM, FieldMap.foldlM_addEquation?_eq_some_iff]
  simp only [Bindings.foldl_insert_empty]
  constructor
  · rintro ⟨equations, h, hnodup, -, hfields⟩
    exact ⟨equations, h, hnodup, hfields⟩
  · rintro ⟨equations, h, hnodup, hfields⟩
    exact ⟨equations, h, hnodup, fun _ _ => rfl, hfields⟩

/-- Answers bound one after the other and answers looked at all at once are put together alike. -/
theorem FieldMap.rebuilt_eq_ofAnswers (op : Operator) (answers : List Condition) :
    FieldMap.rebuilt op answers = FieldMap.ofAnswers op answers := by
  unfold FieldMap.rebuilt FieldMap.ofAnswers
  split
  · rename_i fields h
    obtain ⟨equations, hequations, hnodup, rfl⟩ := FieldMap.ofEquations?_eq_some_iff.1 h
    rw [hequations]
    simp only [if_pos hnodup]
    rfl
  · rename_i hnone
    split
    · rename_i equations hequations
      split
      · rename_i hnodup
        rw [FieldMap.ofEquations?_eq_some_iff.2 ⟨equations, hequations, hnodup, rfl⟩] at hnone
        nomatch hnone
      · rfl
    · rfl

/-- What is the same as an equation is an equation for the same field, with a value that is the same. -/
theorem Condition.equation?_of_same {answer other : Condition} {name : String} {v : Value} (h : answer.same other = true)
    (he : answer.equation? = some (name, v)) : ∃ w, other.equation? = some (name, w) ∧ v.same w = true := by
  rw [Condition.equation?_eq_some_iff] at he
  subst he
  obtain ⟨⟨left, op, right⟩, rfl, hexpr⟩ := Condition.same_expr_iff.1 h
  obtain ⟨hleft, rfl, hright⟩ := Expr.same_iff.1 hexpr
  obtain ⟨w, rfl, hv⟩ := Operand.same_value_iff.1 hright
  rw [Operand.same_field_iff.1 hleft]
  exact ⟨w, rfl, hv⟩

/-- What is the same as equations one after the other is equations for the same fields, with values that are the same. -/
theorem Condition.mapM_equation?_of_same : ∀ {answers others : List Condition} {equations : List (String × Value)},
    Condition.sameItems answers others = true → answers.mapM Condition.equation? = some equations →
    ∃ equations', others.mapM Condition.equation? = some equations' ∧ Value.sameEntries equations equations' = true
  | [], others, equations, h, he => by
    rw [Condition.sameItems_nil_iff] at h
    subst h
    rw [List.mapM_nil] at he
    cases he
    exact ⟨[], rfl, rfl⟩
  | answer :: answers, others, equations, h, he => by
    obtain ⟨other, others, rfl, hanswer, hanswers⟩ := Condition.sameItems_cons_iff.1 h
    rw [List.mapM_cons] at he
    obtain ⟨⟨name, v⟩, hv, he⟩ := Option.bind_eq_some_iff.1 he
    obtain ⟨rest, hrest, he⟩ := Option.bind_eq_some_iff.1 he
    cases he
    obtain ⟨w, hw, hsame⟩ := Condition.equation?_of_same hanswer hv
    obtain ⟨rest', hrest', hsames⟩ := Condition.mapM_equation?_of_same hanswers hrest
    refine ⟨(name, w) :: rest', ?_, Value.sameEntries_cons_iff.2 ⟨w, rest', rfl, hsame, hsames⟩⟩
    rw [List.mapM_cons, hw, hrest']
    rfl

/-- Answers put together are a list of them, or else they are equations for distinct fields, and the map of these. -/
theorem FieldMap.ofAnswers_cases (op : Operator) (answers : List Condition) :
    FieldMap.ofAnswers op answers = .list answers op ∨
      ∃ equations : List (String × Value), (equations.map (·.1)).Nodup ∧
        answers = equations.map (fun e => .expr ⟨.field e.1, .eq, .value e.2⟩) ∧
        FieldMap.ofAnswers op answers = Condition.ofFields op equations := by
  unfold FieldMap.ofAnswers
  split
  · rename_i equations hequations
    split
    · rename_i hnodup
      exact .inr ⟨equations, hnodup, Condition.mapM_equation?_eq_some_iff.1 hequations, rfl⟩
    · exact .inl rfl
  · exact .inl rfl

/-- Answers that are the entries of a map are a map again. -/
theorem FieldMap.ofAnswers_equations (op : Operator) (fields : Bindings Value) :
    FieldMap.ofAnswers op (fields.entries.map fun e => .expr ⟨.field e.1, .eq, .value e.2⟩) = .fieldMap ⟨fields, op⟩ := by
  have hnodup : (fields.entries.map (·.1)).Nodup := fields.nodup_names
  have hentries : Bindings.ofList fields.entries = fields := Bindings.ext (Entries.ofList_of_rising fields.rising)
  rw [FieldMap.ofAnswers, Condition.mapM_equation?_eq_some_iff.2 rfl]
  simp only [if_pos hnodup, Condition.ofFields, hentries]

/-- Answers that are the same one by one are put together alike. -/
theorem FieldMap.ofAnswers_congr (op : Operator) {answers others : List Condition}
    (h : Condition.sameItems answers others = true) :
    (FieldMap.ofAnswers op answers).same (FieldMap.ofAnswers op others) = true := by
  have hlist : (Condition.list answers op).same (.list others op) = true := Condition.same_list_iff.2 ⟨others, rfl, h⟩
  unfold FieldMap.ofAnswers
  cases hequations : answers.mapM Condition.equation? with
  | none =>
    cases hequations' : others.mapM Condition.equation? with
    | none => exact hlist
    | some equations' =>
      rw [Condition.sameItems_comm] at h
      obtain ⟨equations, hequations'', -⟩ := Condition.mapM_equation?_of_same h hequations'
      rw [hequations] at hequations''
      nomatch hequations''
  | some equations =>
    obtain ⟨equations', hequations', hsame⟩ := Condition.mapM_equation?_of_same h hequations
    rw [hequations']
    simp only [Value.names_eq_of_sameEntries hsame]
    split
    · exact Condition.same_fieldMap_iff.2 ⟨_, rfl, Value.sameEntries_ofList hsame⟩
    · exact hlist

/-- Answers that keep expressions are the same as those. -/
theorem Condition.sameItems_of_keeps : ∀ {answers : List Condition} {es : List Expr}, answers.length = es.length →
    ((answers.zip es).all fun (answer, leaf) => answer.keeps leaf) = true →
    Condition.sameItems (es.map .expr) answers = true
  | [], [], _, _ => Condition.sameItems_nil_iff.2 rfl
  | answer :: answers, e :: es, hlength, h => by
    rw [List.zip_cons_cons, List.all_cons, Bool.and_eq_true] at h
    refine Condition.sameItems_cons_iff.2 ⟨answer, answers, rfl, ?_, Condition.sameItems_of_keeps (Nat.succ.inj hlength) h.2⟩
    cases answer with
    | expr f => exact Condition.same_expr_iff.2 ⟨f, rfl, (e.same_comm f).trans h.1⟩
    | _ => nomatch h.1

/-- The entries of a map are the answers that are their own. -/
theorem FieldMap.map_expr_leaves (m : FieldMap) :
    m.leaves.map Condition.expr = m.fields.entries.map fun e => .expr ⟨.field e.1, .eq, .value e.2⟩ := by
  rw [FieldMap.leaves, List.map_map]
  rfl

/-- Answers that keep the entries of a map are a map of equations for its fields in the same order, with the same values. -/
theorem FieldMap.ofAnswers_of_keeps {m : FieldMap} {answers : List Condition} (hlength : answers.length = m.leaves.length)
    (h : ((answers.zip m.leaves).all fun (answer, leaf) => answer.keeps leaf) = true) :
    ∃ fields : Bindings Value, answers.mapM Condition.equation? = some fields.entries ∧
      Value.sameEntries m.fields.entries fields.entries = true ∧
      FieldMap.ofAnswers m.operator answers = .fieldMap ⟨fields, m.operator⟩ := by
  have hanswers := Condition.sameItems_of_keeps hlength h
  rw [m.map_expr_leaves] at hanswers
  obtain ⟨equations, hequations, hsame⟩ :=
    Condition.mapM_equation?_of_same hanswers (Condition.mapM_equation?_eq_some_iff.2 rfl)
  have hrising : Entries.Rising equations := by
    unfold Entries.Rising
    rw [← Value.names_eq_of_sameEntries hsame]
    exact m.fields.rising
  refine ⟨⟨equations, hrising⟩, hequations, hsame, ?_⟩
  rw [Condition.mapM_equation?_eq_some_iff.1 hequations]
  exact FieldMap.ofAnswers_equations m.operator ⟨equations, hrising⟩

/-- A map of which every answer keeps its entry is the map of the answers. -/
theorem FieldMap.same_ofAnswers {m : FieldMap} {answers : List Condition} (hlength : answers.length = m.leaves.length)
    (h : ((answers.zip m.leaves).all fun (answer, leaf) => answer.keeps leaf) = true) :
    (Condition.fieldMap m).same (FieldMap.ofAnswers m.operator answers) = true := by
  have hentries : FieldMap.ofAnswers m.operator (m.leaves.map .expr) = .fieldMap m := by
    rw [m.map_expr_leaves, FieldMap.ofAnswers_equations]
  rw [← hentries]
  exact FieldMap.ofAnswers_congr m.operator (Condition.sameItems_of_keeps hlength h)

/-! ## Conditions -/

/-- What is kept of a condition, or replaces it, is the same as what was built anew. -/
def Condition.Renewed (c : Condition) (new : Option Condition) (built : Condition) : Prop := (new.getD c).same built = true

/-- The answer for a leaf replaces it, or is the same. -/
theorem Condition.renewed_leaf (e : Expr) (answer : Condition) :
    Condition.Renewed (.expr e) (if answer.keeps e then none else some answer) answer := by
  unfold Condition.Renewed
  split
  · rename_i h
    cases answer with
    | expr f =>
      rw [Condition.keeps, Expr.same_comm] at h
      rw [Option.getD_none, Condition.same, h]
    | _ => nomatch h
  · exact answer.same_self

/-- The answers for the entries of a map replace it, or are the same. -/
theorem FieldMap.agree_replace {σ : Type} (f : Expr → StateM σ Condition) (m : FieldMap) :
    Agree (Condition.Renewed (.fieldMap m)) (m.replace f) ((Condition.fieldMap m).rebuild f) := by
  rw [FieldMap.replace, Condition.rebuild]
  refine (Agree.mapM f m.leaves).bind fun answers answers' h => ?_
  obtain ⟨rfl, hlength⟩ := h
  split
  · rename_i hkeeps
    exact .pure (FieldMap.same_ofAnswers hlength hkeeps)
  · refine .pure ?_
    rw [Condition.Renewed, Option.getD_some, FieldMap.rebuilt_eq_ofAnswers]
    exact Condition.same_self _

mutual

/-- Replacing the leaves of a condition agrees with building it anew. -/
theorem Condition.agree_replace {σ : Type} (f : Expr → StateM σ Condition) : ∀ c : Condition,
    Agree (Condition.Renewed c) (c.replace f) (c.rebuild f)
  | .expr ⟨left, op, right⟩ => by
    rw [Condition.replace, Condition.rebuild]
    split
    · exact .andThen fun answer => .pure (Condition.renewed_leaf ⟨left, op, right⟩ answer)
    · refine (Operand.agree_replace f left).bind fun newLeft builtLeft hl => ?_
      refine (Operand.agree_replace f right).bind fun newRight builtRight hr => ?_
      have hsame : (Condition.expr ⟨newLeft.getD left, op, newRight.getD right⟩).same
          (.expr ⟨builtLeft, op, builtRight⟩) = true :=
        Condition.same_expr_iff.2 ⟨_, rfl, Expr.same_iff.2 ⟨hl, rfl, hr⟩⟩
      split
      · rename_i hnone
        rw [Bool.and_eq_true, Option.isNone_iff_eq_none, Option.isNone_iff_eq_none] at hnone
        obtain ⟨rfl, rfl⟩ := hnone
        exact .pure hsame
      · exact .pure hsame
  | .list items op => by
    rw [Condition.replace, Condition.rebuild]
    refine (Condition.agree_replaceItems f items).bind fun new built h => ?_
    obtain ⟨changed, newItems⟩ := new
    have hsame : Condition.sameItems newItems built = true := h.1
    have hunchanged : changed = false → newItems = items := h.2
    refine .pure ?_
    have hlist : (Condition.list newItems op).same (.list built op) = true := Condition.same_list_iff.2 ⟨_, rfl, hsame⟩
    cases changed with
    | true => exact hlist
    | false =>
      rw [hunchanged rfl] at hlist
      exact hlist
  | .fieldMap m => by
    rw [Condition.replace]
    exact m.agree_replace f
  | .raw text => by
    rw [Condition.replace, Condition.rebuild]
    exact .pure (Condition.same_self _)

/-- Replacing the leaves of conditions one after the other agrees with building them anew, and where nothing is noticed to have
changed they are as they were. -/
theorem Condition.agree_replaceItems {σ : Type} (f : Expr → StateM σ Condition) : ∀ cs : List Condition,
    Agree (fun new built => Condition.sameItems new.2 built = true ∧ (new.1 = false → new.2 = cs))
      (Condition.replaceItems f cs) (Condition.rebuildItems f cs)
  | [] => by
    rw [Condition.replaceItems, Condition.rebuildItems]
    exact .pure ⟨Condition.sameItems_self [], fun _ => rfl⟩
  | c :: cs => by
    rw [Condition.replaceItems, Condition.rebuildItems]
    refine (Condition.agree_replace f c).bind fun new built hc => ?_
    refine (Condition.agree_replaceItems f cs).bind fun rest builtRest h => ?_
    obtain ⟨changed, newRest⟩ := rest
    have hsame : Condition.sameItems newRest builtRest = true := h.1
    have hunchanged : changed = false → newRest = cs := h.2
    refine .pure ⟨?_, fun hfalse => ?_⟩
    · exact Condition.sameItems_cons_iff.2 ⟨_, _, rfl, hc, hsame⟩
    · rw [Bool.or_eq_false_iff, Option.isSome_eq_false_iff, Option.isNone_iff_eq_none] at hfalse
      obtain ⟨rfl, rfl⟩ := hfalse
      rw [hunchanged rfl, Option.getD_none]

theorem Operand.agree_replace {σ : Type} (f : Expr → StateM σ Condition) : ∀ o : Operand,
    Agree (fun new built => (new.getD o).same built = true) (o.replace f) (o.rebuild f)
  | .condition c => by
    rw [Operand.replace, Operand.rebuild]
    refine (Condition.agree_replace f c).bind fun new built h => .pure ?_
    cases new with
    | none => exact Operand.same_condition_iff.2 ⟨_, rfl, h⟩
    | some new => exact Operand.same_condition_iff.2 ⟨_, rfl, h⟩
  | .field name => by
    rw [Operand.replace, Operand.rebuild]
    exact .pure (Operand.same_self _)
  | .value v => by
    rw [Operand.replace, Operand.rebuild]
    exact .pure (Operand.same_self _)

end

/-! ## Answers that change nothing -/

/-- An answer that is the leaf itself keeps it. -/
theorem Condition.all_keeps_self (es : List Expr) :
    (((es.map Condition.expr).zip es).all fun (answer, leaf) => answer.keeps leaf) = true := by
  induction es with
  | nil => rfl
  | cons e es ih =>
    rw [List.map_cons, List.zip_cons_cons, List.all_cons, ih, Bool.and_true]
    exact e.same_self

section Unchanged

variable {m : Type → Type} [Monad m] [LawfulMonad m]

mutual

/-- Where every leaf is its own answer, nothing in a condition changes. -/
theorem Condition.replace_expr : ∀ c : Condition, c.replace (fun e => (pure (.expr e) : m Condition)) = pure none
  | .expr ⟨left, op, right⟩ => by
    rw [Condition.replace]
    split
    · rw [pure_bind, Condition.keeps, Expr.same_self, if_pos rfl]
    · rw [Operand.replace_expr left, Operand.replace_expr right, pure_bind, pure_bind]
      rfl
  | .list items op => by
    rw [Condition.replace, Condition.replaceItems_expr items, pure_bind]
    rfl
  | .fieldMap fields => by
    rw [Condition.replace, FieldMap.replace, List.mapM_pure, pure_bind, Condition.all_keeps_self, if_pos rfl]
  | .raw text => by rw [Condition.replace]

theorem Condition.replaceItems_expr : ∀ cs : List Condition,
    Condition.replaceItems (fun e => (pure (.expr e) : m Condition)) cs = pure (false, cs)
  | [] => by rw [Condition.replaceItems]
  | c :: cs => by
    rw [Condition.replaceItems, Condition.replace_expr c, Condition.replaceItems_expr cs, pure_bind, pure_bind]
    rfl

theorem Operand.replace_expr : ∀ o : Operand, o.replace (fun e => (pure (.expr e) : m Condition)) = pure none
  | .condition c => by
    rw [Operand.replace, Condition.replace_expr c, pure_bind]
    rfl
  | .field name => by rw [Operand.replace]
  | .value v => by rw [Operand.replace]

end

end Unchanged

/-- For every function that answers for leaves, and whatever state it keeps, replacing the leaves of a condition gives the same
condition as building it anew from the answers, and leaves the function in the same state: it was called on the same leaves in
the same order. Where every leaf is its own answer the condition stays as it is; and every condition is the same as itself,
whatever floats it holds. -/
theorem Condition.mapLeaves_same_rebuild (c : Condition) :
    (∀ (σ : Type) (f : Expr → StateM σ Condition) (st : σ),
      ((c.mapLeaves f).run st).1.same ((c.rebuild f).run st).1 = true ∧
      ((c.mapLeaves f).run st).2 = ((c.rebuild f).run st).2) ∧
    (∀ (σ : Type) (st : σ), (c.mapLeaves fun e => (pure (.expr e) : StateM σ Condition)).run st = (c, st)) ∧
    c.same c = true := by
  refine ⟨fun σ f st => ?_, fun σ st => ?_, c.same_self⟩
  · exact c.agree_replace f st
  · rw [Condition.mapLeaves, Condition.replace_expr, pure_bind]
    rfl

end WhereClause
