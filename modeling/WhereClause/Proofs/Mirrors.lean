import WhereClause.Condition.Form
import WhereClause.Proofs.Hashing

/-!
# Mirrors: how conditions that are the same are written

Conditions that are the same are written as documents that are the same, and as identical documents only if they are identical
themselves: what is written mirrors both relations, part by part. Documents that are the same differ in their texts as soon as they
differ at all, so the texts of two conditions that are the same tell whether they are identical
(`Condition.text_eq_iff_of_same`).
-/

namespace WhereClause

/-! ## Documents -/

/-- Two documents mirror what they are written for: they are the same, and they are identical only if that is. -/
structure Json.Mirrors (j k : Json) (identical : Prop) : Prop where
  same : j.same k = true
  identical : j = k → identical

section Mirrors

variable {x y : Json} {p q : Prop}

theorem Json.mirrors_self (j : Json) (h : p) : Json.Mirrors j j p := ⟨Json.same_self j, fun _ => h⟩

theorem Json.Mirrors.imp (h : Json.Mirrors x y p) (himp : p → q) : Json.Mirrors x y q :=
  ⟨h.same, fun heq => himp (h.identical heq)⟩

theorem Json.Mirrors.entry {es fs : List (String × Json)} (name : String) (hx : Json.Mirrors x y p)
    (hes : Json.Mirrors (.object es) (.object fs) q) :
    Json.Mirrors (.object ((name, x) :: es)) (.object ((name, y) :: fs)) (p ∧ q) := by
  have hsame := hes.same
  rw [Json.same] at hsame
  constructor
  · rw [Json.same, Json.sameEntries, hx.same, hsame, beq_self_eq_true]
    rfl
  · intro heq
    obtain ⟨hhead, htail⟩ := List.cons.inj (Json.object.inj heq)
    exact ⟨hx.identical (Prod.mk.inj hhead).2, hes.identical (congrArg Json.object htail)⟩

theorem Json.Mirrors.item {xs ys : List Json} (hx : Json.Mirrors x y p) (hxs : Json.Mirrors (.array xs) (.array ys) q) :
    Json.Mirrors (.array (x :: xs)) (.array (y :: ys)) (p ∧ q) := by
  have hsame := hxs.same
  rw [Json.same] at hsame
  constructor
  · rw [Json.same, Json.sameItems, hx.same, hsame]
    rfl
  · intro heq
    obtain ⟨hhead, htail⟩ := List.cons.inj (Json.array.inj heq)
    exact ⟨hx.identical hhead, hxs.identical (congrArg Json.array htail)⟩

theorem Json.Mirrors.alone (name : String) (hx : Json.Mirrors x y p) :
    Json.Mirrors (.object [(name, x)]) (.object [(name, y)]) p :=
  (hx.entry name (Json.mirrors_self (.object []) trivial)).imp And.left

end Mirrors

/-! ## Values -/

/-- Values that are the same are mirrored by what is written for them. -/
theorem Value.mirrors_of_same {v w : Value} (h : v.same w = true) : Json.Mirrors v.toJson w.toJson (v = w) := by
  rcases Value.eq_or_documents_of_same h with rfl | ⟨⟨tree, sorted⟩, ⟨tree', sorted'⟩, rfl, rfl, hsame⟩
  · exact Json.mirrors_self _ rfl
  · have htree : Json.Mirrors tree tree' (Value.json ⟨tree, sorted⟩ = Value.json ⟨tree', sorted'⟩) := by
      refine ⟨hsame, fun heq => ?_⟩
      subst heq
      rfl
    exact htree.alone "Json"

/-- Values bound to names that are the same are mirrored by what is written for them. -/
theorem Value.mirrors_entries_of_same : ∀ {es fs : List (String × Value)}, Value.sameEntries es fs = true →
    Json.Mirrors (.object (es.map fun e => (e.1, e.2.toJson))) (.object (fs.map fun e => (e.1, e.2.toJson))) (es = fs)
  | [], fs, h => by
    rw [Value.sameEntries_nil_iff.1 h]
    exact Json.mirrors_self _ rfl
  | (name, v) :: es, fs, h => by
    obtain ⟨w, fs, rfl, hv, hes⟩ := Value.sameEntries_cons_iff.1 h
    refine ((Value.mirrors_of_same hv).entry name (Value.mirrors_entries_of_same hes)).imp ?_
    rintro ⟨rfl, rfl⟩
    rfl

/-! ## Conditions -/

mutual

/-- Conditions that are the same are mirrored by what is written for them. -/
theorem Condition.mirrors_of_same : ∀ {c d : Condition}, c.same d = true → Json.Mirrors c.toJson d.toJson (c = d)
  | .expr ⟨left, op, right⟩, d, h => by
    obtain ⟨⟨left', op', right'⟩, rfl, hexpr⟩ := Condition.same_expr_iff.1 h
    obtain ⟨hleft, rfl, hright⟩ := Expr.same_iff.1 hexpr
    have hmembers := (Operand.mirrors_of_same hleft).entry "left" <| (Json.mirrors_self (.string op.name) trivial).entry
      "operator" <| (Operand.mirrors_of_same hright).alone "right"
    refine ((Json.mirrors_self (.string "expr") trivial).entry "kind" hmembers).imp ?_
    rintro ⟨-, rfl, -, rfl⟩
    rfl
  | .list items op, d, h => by
    obtain ⟨others, rfl, hitems⟩ := Condition.same_list_iff.1 h
    have hmembers := (Condition.mirrors_items_of_same hitems).entry "items" <|
      (Json.mirrors_self (.string op.name) trivial).alone "operator"
    refine ((Json.mirrors_self (.string "list") trivial).entry "kind" hmembers).imp ?_
    rintro ⟨-, rfl, -⟩
    rfl
  | .fieldMap ⟨fields, op⟩, d, h => by
    obtain ⟨others, rfl, hentries⟩ := Condition.same_fieldMap_iff.1 h
    have hmembers := (Value.mirrors_entries_of_same hentries).entry "fields" <|
      (Json.mirrors_self (.string op.name) trivial).alone "operator"
    refine ((Json.mirrors_self (.string "field_map") trivial).entry "kind" hmembers).imp ?_
    rintro ⟨-, hfields, -⟩
    rw [Bindings.ext hfields]
  | .raw text, d, h => by
    obtain rfl := Condition.same_raw_iff.1 h
    exact Json.mirrors_self _ rfl

theorem Condition.mirrors_items_of_same : ∀ {cs ds : List Condition}, Condition.sameItems cs ds = true →
    Json.Mirrors (.array (Condition.toJsonItems cs)) (.array (Condition.toJsonItems ds)) (cs = ds)
  | [], ds, h => by
    obtain rfl := Condition.sameItems_nil_iff.1 h
    exact Json.mirrors_self _ rfl
  | c :: cs, ds, h => by
    obtain ⟨d, ds, rfl, hc, hcs⟩ := Condition.sameItems_cons_iff.1 h
    refine ((Condition.mirrors_of_same hc).item (Condition.mirrors_items_of_same hcs)).imp ?_
    rintro ⟨rfl, rfl⟩
    rfl

theorem Operand.mirrors_of_same : ∀ {o p : Operand}, o.same p = true → Json.Mirrors o.toJson p.toJson (o = p)
  | .condition c, p, h => by
    obtain ⟨d, rfl, hc⟩ := Operand.same_condition_iff.1 h
    exact ((Condition.mirrors_of_same hc).alone "condition").imp (congrArg Operand.condition)
  | .field name, p, h => by
    obtain rfl := Operand.same_field_iff.1 h
    exact Json.mirrors_self _ rfl
  | .value v, p, h => by
    obtain ⟨w, rfl, hv⟩ := Operand.same_value_iff.1 h
    exact ((Value.mirrors_of_same hv).alone "value").imp (congrArg Operand.value)

end

/-- Conditions that are the same are written as one text exactly when they are identical. -/
theorem Condition.text_eq_iff_of_same {c d : Condition} (h : c.same d = true) : c.toJson.text = d.toJson.text ↔ c = d := by
  have hmirrors := Condition.mirrors_of_same h
  constructor
  · intro htext
    rcases Json.eq_or_apartAtZero hmirrors.same with heq | hapart
    · exact hmirrors.identical heq
    · exact absurd htext hapart.text_ne
  · rintro rfl
    rfl

end WhereClause
