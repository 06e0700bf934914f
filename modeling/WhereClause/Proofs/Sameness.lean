import WhereClause.Condition.Basic

/-!
# Sameness: equal values, equal conditions

Values are compared by `Value.same` and conditions part by part. Everything is the same as itself (`Condition.same_self`), a NaN
included: floats are compared by their bits, and a JSON document holds no NaN. It does not matter which of two is compared with
which (`Expr.same_comm`), and what is the same as a third is the same as each other (`Condition.same_trans`).

What is the same as a given condition, expression or operand is one of the same kind with the same parts: for each there is a
statement that takes such a comparison apart (`Condition.same_list_iff` and the others), and whoever argues along a comparison of
two conditions follows these.
-/

namespace WhereClause

/-! ## JSON -/

/-- A finite double is a number. -/
theorem Double.isNaN_of_isFinite {x : Double} (h : x.isFinite = true) : x.isNaN = false := by
  unfold Double.isFinite at h
  unfold Double.isNaN
  rw [beq_eq_false_iff_ne.2 (bne_iff_ne.1 h), Bool.false_and]

theorem Json.Number.same_self (n : Json.Number) : n.same n = true := by
  cases n with
  | whole n fits => exact beq_self_eq_true n
  | float x finite => exact Double.same_self (Double.isNaN_of_isFinite finite)

theorem Json.Number.same_comm (n m : Json.Number) : n.same m = m.same n := by
  cases n with
  | whole n fits =>
    cases m with
    | whole m fits' => exact BEq.comm
    | float y finite => rfl
  | float x finite =>
    cases m with
    | whole m fits => rfl
    | float y finite' => exact Double.same_comm x y

mutual

theorem Json.same_self : ∀ j : Json, j.same j = true
  | .null => rfl
  | .bool b => beq_self_eq_true b
  | .number n => n.same_self
  | .string s => beq_self_eq_true s
  | .array items => Json.sameItems_self items
  | .object entries => Json.sameEntries_self entries

theorem Json.sameItems_self : ∀ items : List Json, Json.sameItems items items = true
  | [] => rfl
  | x :: xs => by rw [Json.sameItems, Json.same_self x, Json.sameItems_self xs, Bool.and_self]

theorem Json.sameEntries_self : ∀ entries : List (String × Json), Json.sameEntries entries entries = true
  | [] => rfl
  | (k, x) :: es => by
    rw [Json.sameEntries, beq_self_eq_true, Json.same_self x, Json.sameEntries_self es, Bool.and_self, Bool.and_self]

end

mutual

theorem Json.same_comm : ∀ j k : Json, j.same k = k.same j
  | .null, k => by cases k <;> rfl
  | .bool b, k => by
    cases k with
    | bool c => exact BEq.comm
    | _ => rfl
  | .number n, k => by
    cases k with
    | number m => exact n.same_comm m
    | _ => rfl
  | .string s, k => by
    cases k with
    | string t => exact BEq.comm
    | _ => rfl
  | .array items, k => by
    cases k with
    | array others => exact Json.sameItems_comm items others
    | _ => rfl
  | .object entries, k => by
    cases k with
    | object others => exact Json.sameEntries_comm entries others
    | _ => rfl

theorem Json.sameItems_comm : ∀ items others : List Json, Json.sameItems items others = Json.sameItems others items
  | [], [] => rfl
  | [], _ :: _ => rfl
  | _ :: _, [] => rfl
  | x :: xs, y :: ys => by rw [Json.sameItems, Json.sameItems, Json.same_comm x y, Json.sameItems_comm xs ys]

theorem Json.sameEntries_comm : ∀ entries others : List (String × Json),
    Json.sameEntries entries others = Json.sameEntries others entries
  | [], [] => rfl
  | [], _ :: _ => rfl
  | _ :: _, [] => rfl
  | (k, x) :: es, (l, y) :: fs => by
    rw [Json.sameEntries, Json.sameEntries, Json.same_comm x y, Json.sameEntries_comm es fs, BEq.comm (a := k)]

end

/-! ## Values -/

theorem Value.same_self (v : Value) : v.same v = true := by
  cases v with
  | json d => exact Json.same_self d.tree
  | null => rfl
  | _ => exact beq_self_eq_true _

theorem Value.same_comm (v w : Value) : v.same w = w.same v := by
  cases v with
  | json d =>
    cases w with
    | json e => exact Json.same_comm d.tree e.tree
    | _ => rfl
  | _ =>
    -- values of two kinds differ both ways, and the contents of one kind are compared by an equality
    cases w <;> try rfl
    all_goals exact BEq.comm

theorem Value.sameEntries_self (entries : List (String × Value)) : Value.sameEntries entries entries = true := by
  induction entries with
  | nil => rfl
  | cons e es ih => rw [Value.sameEntries, beq_self_eq_true, e.2.same_self, ih, Bool.and_self, Bool.and_self]

theorem Value.sameEntries_comm : ∀ entries others : List (String × Value),
    Value.sameEntries entries others = Value.sameEntries others entries
  | [], [] => rfl
  | [], _ :: _ => rfl
  | _ :: _, [] => rfl
  | (n, v) :: es, (m, w) :: fs => by
    rw [Value.sameEntries, Value.sameEntries, Value.same_comm v w, Value.sameEntries_comm es fs, BEq.comm (a := n)]

/-! ## Conditions -/

theorem FieldMap.same_self (m : FieldMap) : m.same m = true := by
  rw [FieldMap.same, Value.sameEntries_self, beq_self_eq_true, Bool.and_self]

theorem FieldMap.same_comm (m n : FieldMap) : m.same n = n.same m := by
  rw [FieldMap.same, FieldMap.same, Value.sameEntries_comm, BEq.comm (a := m.operator)]

mutual

theorem Condition.same_self : ∀ c : Condition, c.same c = true
  | .expr e => by rw [Condition.same, Expr.same_self e]
  | .list items op => by rw [Condition.same, Condition.sameItems_self items, beq_self_eq_true, Bool.and_self]
  | .fieldMap m => by rw [Condition.same, m.same_self]
  | .raw text => by rw [Condition.same, beq_self_eq_true]

theorem Expr.same_self : ∀ e : Expr, e.same e = true
  | ⟨left, op, right⟩ => by
    rw [Expr.same, Operand.same_self left, Operand.same_self right, beq_self_eq_true, Bool.and_self, Bool.and_self]

theorem Operand.same_self : ∀ o : Operand, o.same o = true
  | .condition c => by rw [Operand.same, Condition.same_self c]
  | .field name => by rw [Operand.same, beq_self_eq_true]
  | .value v => by rw [Operand.same, v.same_self]

theorem Condition.sameItems_self : ∀ cs : List Condition, Condition.sameItems cs cs = true
  | [] => by rw [Condition.sameItems]
  | c :: cs => by rw [Condition.sameItems, Condition.same_self c, Condition.sameItems_self cs, Bool.and_self]

end

mutual

theorem Condition.same_comm : ∀ c d : Condition, c.same d = d.same c
  | .expr e, d => by
    cases d with
    | expr f => rw [Condition.same, Condition.same, Expr.same_comm e f]
    | _ => simp only [Condition.same]
  | .list items op, d => by
    cases d with
    | list others p => rw [Condition.same, Condition.same, Condition.sameItems_comm items others, BEq.comm (a := op)]
    | _ => simp only [Condition.same]
  | .fieldMap m, d => by
    cases d with
    | fieldMap n => rw [Condition.same, Condition.same, m.same_comm n]
    | _ => simp only [Condition.same]
  | .raw text, d => by
    cases d with
    | raw other => rw [Condition.same, Condition.same, BEq.comm]
    | _ => simp only [Condition.same]

theorem Expr.same_comm : ∀ e f : Expr, e.same f = f.same e
  | ⟨left, op, right⟩, ⟨left', op', right'⟩ => by
    rw [Expr.same, Expr.same, Operand.same_comm left left', Operand.same_comm right right', BEq.comm (a := op)]

theorem Operand.same_comm : ∀ o p : Operand, o.same p = p.same o
  | .condition c, p => by
    cases p with
    | condition d => rw [Operand.same, Operand.same, Condition.same_comm c d]
    | _ => simp only [Operand.same]
  | .field name, p => by
    cases p with
    | field other => rw [Operand.same, Operand.same, BEq.comm]
    | _ => simp only [Operand.same]
  | .value v, p => by
    cases p with
    | value w => rw [Operand.same, Operand.same, v.same_comm w]
    | _ => simp only [Operand.same]

theorem Condition.sameItems_comm : ∀ cs ds : List Condition, Condition.sameItems cs ds = Condition.sameItems ds cs
  | [], [] => rfl
  | [], _ :: _ => by simp only [Condition.sameItems]
  | _ :: _, [] => by simp only [Condition.sameItems]
  | c :: cs, d :: ds => by
    rw [Condition.sameItems, Condition.sameItems, Condition.same_comm c d, Condition.sameItems_comm cs ds]

end

/-! ## What the same consists of -/

/-- Values that are the same are identical, or documents that are. -/
theorem Value.eq_or_documents_of_same {v w : Value} (h : v.same w = true) :
    v = w ∨ ∃ d e : Document, v = .json d ∧ w = .json e ∧ d.same e = true := by
  cases v with
  | json d =>
    cases w with
    | json e => exact .inr ⟨d, e, rfl, rfl, h⟩
    | _ => nomatch h
  | null =>
    cases w with
    | null => exact .inl rfl
    | _ => nomatch h
  | _ =>
    -- the contents of any other kind are compared by an equality
    left
    cases w <;> first | exact congrArg _ (beq_iff_eq.1 h) | nomatch h

theorem Value.sameEntries_nil_iff {fs : List (String × Value)} : Value.sameEntries [] fs = true ↔ fs = [] := by
  cases fs <;> simp [Value.sameEntries]

/-- What is the same as bound values is values that are the same, bound to the same names in the same order. -/
theorem Value.sameEntries_cons_iff {name : String} {v : Value} {es fs : List (String × Value)} :
    Value.sameEntries ((name, v) :: es) fs = true ↔
      ∃ w rest, fs = (name, w) :: rest ∧ v.same w = true ∧ Value.sameEntries es rest = true := by
  cases fs with
  | nil => simp [Value.sameEntries]
  | cons f fs =>
    obtain ⟨other, w⟩ := f
    simp only [Value.sameEntries, Bool.and_eq_true, beq_iff_eq, List.cons.injEq, Prod.mk.injEq]
    constructor
    · rintro ⟨⟨rfl, hv⟩, hes⟩
      exact ⟨w, fs, ⟨⟨rfl, rfl⟩, rfl⟩, hv, hes⟩
    · rintro ⟨w', rest, ⟨⟨rfl, rfl⟩, rfl⟩, hv, hes⟩
      exact ⟨⟨rfl, hv⟩, hes⟩

/-- Values that are the same, bound one by one, are bound to the same names. -/
theorem Value.names_eq_of_sameEntries : ∀ {es fs : List (String × Value)}, Value.sameEntries es fs = true →
    es.map (·.1) = fs.map (·.1)
  | [], fs, h => by rw [Value.sameEntries_nil_iff.1 h]
  | (name, v) :: es, fs, h => by
    obtain ⟨w, fs, rfl, -, hes⟩ := Value.sameEntries_cons_iff.1 h
    rw [List.map_cons, List.map_cons, Value.names_eq_of_sameEntries hes]

/-- Binding one name to values that are the same keeps what is bound the same. -/
theorem Value.sameEntries_insert {name : String} {v w : Value} (hv : v.same w = true) : ∀ {es fs : List (String × Value)},
    Value.sameEntries es fs = true → Value.sameEntries (Entries.insert name v es) (Entries.insert name w fs) = true
  | [], fs, h => by
    rw [Value.sameEntries_nil_iff.1 h]
    exact Value.sameEntries_cons_iff.2 ⟨w, [], rfl, hv, rfl⟩
  | (other, x) :: es, fs, h => by
    obtain ⟨y, fs, rfl, hx, hes⟩ := Value.sameEntries_cons_iff.1 h
    simp only [Entries.insert]
    split
    · exact Value.sameEntries_cons_iff.2 ⟨w, _, rfl, hv, h⟩
    · split
      · exact Value.sameEntries_cons_iff.2 ⟨w, fs, rfl, hv, hes⟩
      · exact Value.sameEntries_cons_iff.2 ⟨y, _, rfl, hx, Value.sameEntries_insert hv hes⟩

/-- Values that are the same, bound one by one, are the same when they are put in order. -/
theorem Value.sameEntries_ofList {es fs : List (String × Value)} (h : Value.sameEntries es fs = true) :
    Value.sameEntries (Entries.ofList es) (Entries.ofList fs) = true := by
  have go : ∀ {es fs sorted sorted' : List (String × Value)}, Value.sameEntries es fs = true →
      Value.sameEntries sorted sorted' = true →
      Value.sameEntries (es.foldl (fun sorted e => Entries.insert e.1 e.2 sorted) sorted)
        (fs.foldl (fun sorted e => Entries.insert e.1 e.2 sorted) sorted') = true := by
    intro es
    induction es with
    | nil =>
      intro fs sorted sorted' h hsorted
      rw [Value.sameEntries_nil_iff.1 h]
      exact hsorted
    | cons e es ih =>
      intro fs sorted sorted' h hsorted
      obtain ⟨w, fs, rfl, hv, hes⟩ := Value.sameEntries_cons_iff.1 h
      rw [List.foldl_cons, List.foldl_cons]
      exact ih hes (Value.sameEntries_insert hv hsorted)
  exact go h rfl

theorem Condition.sameItems_nil_iff {ds : List Condition} : Condition.sameItems [] ds = true ↔ ds = [] := by
  cases ds <;> simp [Condition.sameItems]

/-- What is the same as conditions one after the other is as many conditions, each the same. -/
theorem Condition.sameItems_cons_iff {c : Condition} {cs ds : List Condition} :
    Condition.sameItems (c :: cs) ds = true ↔
      ∃ d rest, ds = d :: rest ∧ c.same d = true ∧ Condition.sameItems cs rest = true := by
  cases ds with
  | nil => simp [Condition.sameItems]
  | cons d ds =>
    simp only [Condition.sameItems, Bool.and_eq_true, List.cons.injEq]
    constructor
    · rintro ⟨hc, hcs⟩
      exact ⟨d, ds, ⟨rfl, rfl⟩, hc, hcs⟩
    · rintro ⟨d', rest, ⟨rfl, rfl⟩, hc, hcs⟩
      exact ⟨hc, hcs⟩

theorem Expr.same_iff {left right left' right' : Operand} {op op' : Operator} :
    (Expr.mk left op right).same ⟨left', op', right'⟩ = true ↔
      left.same left' = true ∧ op = op' ∧ right.same right' = true := by
  simp [Expr.same, and_assoc]

/-- What is the same as an expression is an expression that is the same. -/
theorem Condition.same_expr_iff {e : Expr} {d : Condition} :
    (Condition.expr e).same d = true ↔ ∃ f, d = .expr f ∧ e.same f = true := by
  cases d <;> simp [Condition.same]

/-- What is the same as a list is a list of conditions that are the same, joined by the same operator. -/
theorem Condition.same_list_iff {items : List Condition} {op : Operator} {d : Condition} :
    (Condition.list items op).same d = true ↔
      ∃ others, d = .list others op ∧ Condition.sameItems items others = true := by
  cases d with
  | list others op' =>
    simp only [Condition.same, Bool.and_eq_true, beq_iff_eq, Condition.list.injEq]
    constructor
    · rintro ⟨hitems, rfl⟩
      exact ⟨others, ⟨rfl, rfl⟩, hitems⟩
    · rintro ⟨others', ⟨rfl, rfl⟩, hitems⟩
      exact ⟨hitems, rfl⟩
  | _ => simp [Condition.same]

/-- What is the same as a map is a map of values that are the same, joined by the same operator. -/
theorem Condition.same_fieldMap_iff {fields : Bindings Value} {op : Operator} {d : Condition} :
    (Condition.fieldMap ⟨fields, op⟩).same d = true ↔
      ∃ others : Bindings Value, d = .fieldMap ⟨others, op⟩ ∧ Value.sameEntries fields.entries others.entries = true := by
  cases d with
  | fieldMap n =>
    obtain ⟨others, op'⟩ := n
    simp only [Condition.same, FieldMap.same, Bool.and_eq_true, beq_iff_eq, Condition.fieldMap.injEq, FieldMap.mk.injEq]
    constructor
    · rintro ⟨hentries, rfl⟩
      exact ⟨others, ⟨rfl, rfl⟩, hentries⟩
    · rintro ⟨others', ⟨rfl, rfl⟩, hentries⟩
      exact ⟨hentries, rfl⟩
  | _ => simp [Condition.same]

theorem Condition.same_raw_iff {text : String} {d : Condition} : (Condition.raw text).same d = true ↔ d = .raw text := by
  cases d <;> simp [Condition.same, eq_comm (a := text)]

theorem Operand.same_condition_iff {c : Condition} {p : Operand} :
    (Operand.condition c).same p = true ↔ ∃ d, p = .condition d ∧ c.same d = true := by
  cases p <;> simp [Operand.same]

theorem Operand.same_field_iff {name : String} {p : Operand} : (Operand.field name).same p = true ↔ p = .field name := by
  cases p <;> simp [Operand.same, eq_comm (a := name)]

theorem Operand.same_value_iff {v : Value} {p : Operand} :
    (Operand.value v).same p = true ↔ ∃ w, p = .value w ∧ v.same w = true := by
  cases p <;> simp [Operand.same]

/-- An operand that is the same as another is a condition if that is one. -/
theorem Operand.isCondition_eq_of_same {o p : Operand} (h : o.same p = true) : o.isCondition = p.isCondition := by
  cases o with
  | condition c =>
    obtain ⟨d, rfl, -⟩ := Operand.same_condition_iff.1 h
    rfl
  | field name => rw [Operand.same_field_iff.1 h]
  | value v =>
    obtain ⟨w, rfl, -⟩ := Operand.same_value_iff.1 h
    rfl

/-- An expression that is the same as another is a leaf if that is one. -/
theorem Expr.isLeaf_eq_of_same {e f : Expr} (h : e.same f = true) : e.isLeaf = f.isLeaf := by
  obtain ⟨left, op, right⟩ := e
  obtain ⟨left', op', right'⟩ := f
  obtain ⟨hl, -, hr⟩ := Expr.same_iff.1 h
  rw [Expr.isLeaf, Expr.isLeaf, Operand.isCondition_eq_of_same hl, Operand.isCondition_eq_of_same hr]

/-- Equations of one field are the same if their values are. -/
theorem Expr.same_equation (name : String) {v w : Value} (h : v.same w = true) :
    (Expr.mk (.field name) .eq (.value v)).same ⟨.field name, .eq, .value w⟩ = true :=
  Expr.same_iff.2 ⟨Operand.same_self _, rfl, Operand.same_value_iff.2 ⟨w, rfl, h⟩⟩

/-! ## The same as a third -/

theorem Double.same_trans {x y z : Double} (h : x.same y = true) (h' : y.same z = true) : x.same z = true := by
  simp only [Double.same, Bool.and_eq_true, Bool.or_eq_true, beq_iff_eq] at h h' ⊢
  obtain ⟨⟨hx, -⟩, heq | ⟨hxzero, hyzero⟩⟩ := h
  · subst heq
    exact h'
  · obtain ⟨⟨-, hz⟩, heq | ⟨-, hzzero⟩⟩ := h'
    · subst heq
      exact ⟨⟨hx, hz⟩, .inr ⟨hxzero, hyzero⟩⟩
    · exact ⟨⟨hx, hz⟩, .inr ⟨hxzero, hzzero⟩⟩

theorem Json.Number.same_trans {n m k : Json.Number} (h : n.same m = true) (h' : m.same k = true) : n.same k = true := by
  cases n with
  | whole n fits =>
    cases m with
    | whole m fits' =>
      rw [Json.Number.same, beq_iff_eq] at h
      subst h
      exact h'
    | float y finite => nomatch h
  | float x finite =>
    cases m with
    | whole m fits => nomatch h
    | float y finite' =>
      cases k with
      | whole k fits => nomatch h'
      | float z finite'' => exact Double.same_trans h h'

mutual

theorem Json.same_trans : ∀ {j k l : Json}, j.same k = true → k.same l = true → j.same l = true
  | .null, k, l, h, h' => by
    cases k with
    | null => exact h'
    | _ => nomatch h
  | .bool b, k, l, h, h' => by
    cases k with
    | bool c => rwa [beq_iff_eq.1 (show (b == c) = true from h)]
    | _ => nomatch h
  | .number n, k, l, h, h' => by
    cases k with
    | number m =>
      cases l with
      | number p => exact Json.Number.same_trans h h'
      | _ => nomatch h'
    | _ => nomatch h
  | .string s, k, l, h, h' => by
    cases k with
    | string t => rwa [beq_iff_eq.1 (show (s == t) = true from h)]
    | _ => nomatch h
  | .array items, k, l, h, h' => by
    cases k with
    | array others =>
      cases l with
      | array thirds => exact Json.sameItems_trans h h'
      | _ => nomatch h'
    | _ => nomatch h
  | .object entries, k, l, h, h' => by
    cases k with
    | object others =>
      cases l with
      | object thirds => exact Json.sameEntries_trans h h'
      | _ => nomatch h'
    | _ => nomatch h

theorem Json.sameItems_trans : ∀ {items others thirds : List Json},
    Json.sameItems items others = true → Json.sameItems others thirds = true → Json.sameItems items thirds = true
  | [], [], _, _, h' => h'
  | x :: xs, y :: ys, z :: zs, h, h' => by
    simp only [Json.sameItems, Bool.and_eq_true] at h h' ⊢
    exact ⟨Json.same_trans h.1 h'.1, Json.sameItems_trans h.2 h'.2⟩

theorem Json.sameEntries_trans : ∀ {entries others thirds : List (String × Json)},
    Json.sameEntries entries others = true → Json.sameEntries others thirds = true → Json.sameEntries entries thirds = true
  | [], [], _, _, h' => h'
  | (k, x) :: es, (l, y) :: fs, (n, z) :: gs, h, h' => by
    simp only [Json.sameEntries, Bool.and_eq_true, beq_iff_eq] at h h' ⊢
    obtain ⟨⟨rfl, hx⟩, hes⟩ := h
    obtain ⟨⟨rfl, hy⟩, hfs⟩ := h'
    exact ⟨⟨rfl, Json.same_trans hx hy⟩, Json.sameEntries_trans hes hfs⟩

end

theorem Value.same_trans {v w x : Value} (h : v.same w = true) (h' : w.same x = true) : v.same x = true := by
  rcases Value.eq_or_documents_of_same h with rfl | ⟨d, e, rfl, rfl, hd⟩
  · exact h'
  · rcases Value.eq_or_documents_of_same h' with rfl | ⟨e', f, he, rfl, hf⟩
    · exact h
    · cases he
      exact Json.same_trans hd hf

theorem Value.sameEntries_trans : ∀ {es fs gs : List (String × Value)},
    Value.sameEntries es fs = true → Value.sameEntries fs gs = true → Value.sameEntries es gs = true
  | [], fs, gs, h, h' => by
    rw [Value.sameEntries_nil_iff] at h
    subst h
    exact h'
  | (name, v) :: es, fs, gs, h, h' => by
    obtain ⟨w, fs, rfl, hv, hes⟩ := Value.sameEntries_cons_iff.1 h
    obtain ⟨x, gs, rfl, hw, hfs⟩ := Value.sameEntries_cons_iff.1 h'
    exact Value.sameEntries_cons_iff.2 ⟨x, gs, rfl, Value.same_trans hv hw, Value.sameEntries_trans hes hfs⟩

mutual

theorem Condition.same_trans : ∀ {c d e : Condition}, c.same d = true → d.same e = true → c.same e = true
  | .expr ⟨left, op, right⟩, d, e, h, h' => by
    obtain ⟨⟨left', op', right'⟩, rfl, hexpr⟩ := Condition.same_expr_iff.1 h
    obtain ⟨⟨left'', op'', right''⟩, rfl, hexpr'⟩ := Condition.same_expr_iff.1 h'
    obtain ⟨hl, rfl, hr⟩ := Expr.same_iff.1 hexpr
    obtain ⟨hl', rfl, hr'⟩ := Expr.same_iff.1 hexpr'
    rw [Condition.same]
    exact Expr.same_iff.2 ⟨Operand.same_trans hl hl', rfl, Operand.same_trans hr hr'⟩
  | .list items op, d, e, h, h' => by
    obtain ⟨others, rfl, hitems⟩ := Condition.same_list_iff.1 h
    obtain ⟨thirds, rfl, hothers⟩ := Condition.same_list_iff.1 h'
    exact Condition.same_list_iff.2 ⟨thirds, rfl, Condition.sameItems_trans hitems hothers⟩
  | .fieldMap ⟨fields, op⟩, d, e, h, h' => by
    obtain ⟨others, rfl, hentries⟩ := Condition.same_fieldMap_iff.1 h
    obtain ⟨thirds, rfl, hothers⟩ := Condition.same_fieldMap_iff.1 h'
    exact Condition.same_fieldMap_iff.2 ⟨thirds, rfl, Value.sameEntries_trans hentries hothers⟩
  | .raw text, d, e, h, h' => by
    rw [Condition.same_raw_iff] at h
    subst h
    exact h'

theorem Condition.sameItems_trans : ∀ {cs ds es : List Condition},
    Condition.sameItems cs ds = true → Condition.sameItems ds es = true → Condition.sameItems cs es = true
  | [], ds, es, h, h' => by
    rw [Condition.sameItems_nil_iff] at h
    subst h
    exact h'
  | c :: cs, ds, es, h, h' => by
    obtain ⟨d, ds, rfl, hc, hcs⟩ := Condition.sameItems_cons_iff.1 h
    obtain ⟨e, es, rfl, hd, hds⟩ := Condition.sameItems_cons_iff.1 h'
    exact Condition.sameItems_cons_iff.2 ⟨e, es, rfl, Condition.same_trans hc hd, Condition.sameItems_trans hcs hds⟩

theorem Operand.same_trans : ∀ {o p q : Operand}, o.same p = true → p.same q = true → o.same q = true
  | .condition c, p, q, h, h' => by
    obtain ⟨d, rfl, hc⟩ := Operand.same_condition_iff.1 h
    obtain ⟨e, rfl, hd⟩ := Operand.same_condition_iff.1 h'
    exact Operand.same_condition_iff.2 ⟨e, rfl, Condition.same_trans hc hd⟩
  | .field name, p, q, h, h' => by
    rw [Operand.same_field_iff] at h
    subst h
    exact h'
  | .value v, p, q, h, h' => by
    obtain ⟨w, rfl, hv⟩ := Operand.same_value_iff.1 h
    obtain ⟨x, rfl, hw⟩ := Operand.same_value_iff.1 h'
    exact Operand.same_value_iff.2 ⟨x, rfl, Value.same_trans hv hw⟩

end

end WhereClause
