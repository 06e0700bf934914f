import WhereClause.Condition.Form
import WhereClause.Condition.Nodes
import WhereClause.Proofs.Decoding
import WhereClause.Proofs.Sameness

/-!
# ConditionStorage: conditions that are written and read

A condition is written as a document that says of each of its parts what kind it is, in one of three ways: among the members
of the object for a condition, by the one member of the object for an operand or a value, and by a bare name for null. Reading
such a document gives the condition back (`Condition.decode_toJson`), whatever texts and documents stand in it: what looks
like the name of a kind in there is never taken for one, since each part is read by the reader of its kind. A document of the
caller's stands as it is, so it counts among the levels that a text may be nested.
-/

namespace WhereClause

/-! ## Values -/

/-- Whether the scalars of a value are read as what they are written for: floats, also those inside a document, uuids, dates and
timestamps. -/
def Value.ReadsBack : Value → Prop
  | .float x => x.ReadsBack
  | .json d => ∀ x ∈ d.tree.floats, x.ReadsBack
  | .uuid u => Uuid.ofText? u.text = some u
  | .date d => Date.ofText? d.text = some d
  | .timestamp t => Timestamp.ofText? t.text = some t
  | _ => True

instance : ∀ v : Value, Decidable v.ReadsBack
  | .float x => inferInstanceAs (Decidable x.ReadsBack)
  | .json d => inferInstanceAs (Decidable (∀ x ∈ d.tree.floats, x.ReadsBack))
  | .uuid u => inferInstanceAs (Decidable (Uuid.ofText? u.text = some u))
  | .date d => inferInstanceAs (Decidable (Date.ofText? d.text = some d))
  | .timestamp t => inferInstanceAs (Decidable (Timestamp.ofText? t.text = some t))
  | .int _ | .uint _ | .string _ | .boolean _ | .bytes _ | .null => isTrue trivial

/-- Whether a value is finite, if it is a float. -/
def Value.isFinite : Value → Bool
  | .float x => x.isFinite
  | _ => true

/-- Whether a value is written as something that is read as the value: its scalars are, and if it is a float it is finite. -/
def Value.Storable (v : Value) : Prop := v.ReadsBack ∧ v.isFinite = true

/-- Octets are read as they were written. -/
theorem Draft.toList_octets (bs : List UInt8) {source deeper : Draft.Source} (hdown : source.down = .ok deeper) :
    Draft.toList (fun _ d => (d.toWhole 0 255).map fun n => UInt8.ofNat n.toNat) source
      (Json.array (bs.map Json.ofOctet)).draft = .ok bs := by
  refine Draft.toList_draft hdown fun b _ => ?_
  have hb : b.toUInt64.toNat = b.toNat := UInt8.toNat_toUInt64 b
  have hlt := b.toNat_lt
  have hwhole : Draft.toWhole 0 255 (Json.ofOctet b).draft = .ok b.toNat := by
    rw [Json.ofOctet, Json.ofUInt64, Draft.toWhole_draft (by omega) (by omega), hb]
  rw [hwhole]
  exact congrArg Except.ok (UInt8.ofNat_toNat)

/-- The kinds of value have distinct names. -/
theorem Value.nodup_choices : (Value.choices.map (·.1)).Nodup := by decide +kernel

/-- A value is made of what goes with the name of its kind. -/
theorem Value.ofDraft_object {i : Nat} {name : String} {make : Draft.Source → Draft → Except Fault Value}
    (hmake : Value.choices[i]? = some (name, .holding make)) {source deeper : Draft.Source} (hdown : source.down = .ok deeper)
    {d : Draft} {v : Value} (hv : make deeper d = .ok v) : Value.ofDraft source (.object [(.string name, d)]) = .ok v :=
  Draft.toChoice_object Value.nodup_choices (List.mem_of_getElem? hmake) hdown hv

/-- A value is read as it was written, where there is room for its levels. -/
theorem Value.ofDraft_toJson {v : Value} (h : v.Storable) {source : Draft.Source} (hroom : source.Holds v.toJson.height) :
    Value.ofDraft source v.toJson.draft = .ok v := by
  cases v with
  | int n =>
    obtain ⟨deeper, hdown, -⟩ := Draft.Source.Holds.down hroom
    have hlt := n.toInt_lt
    have hn : Draft.toWhole (-0x8000000000000000) 0x7FFFFFFFFFFFFFFF (Json.ofInt64 n).draft = .ok n.toInt :=
      Draft.toWhole_draft n.le_toInt (by omega)
    refine Value.ofDraft_object (i := 0) rfl hdown ((congrArg (Except.map _) hn).trans ?_)
    exact congrArg (fun n => Except.ok (Value.int n)) n.ofInt_toInt
  | uint n =>
    obtain ⟨deeper, hdown, -⟩ := Draft.Source.Holds.down hroom
    have hlt := n.toNat_lt
    have hn : Draft.toWhole 0 0xFFFFFFFFFFFFFFFF (Json.ofUInt64 n).draft = .ok n.toNat :=
      Draft.toWhole_draft (by omega) (by omega)
    refine Value.ofDraft_object (i := 1) rfl hdown ((congrArg (Except.map _) hn).trans ?_)
    exact congrArg (fun n => Except.ok (Value.uint n)) UInt64.ofNat_toNat
  | float x =>
    obtain ⟨deeper, hdown, -⟩ := Draft.Source.Holds.down hroom
    have finite : x.isFinite = true := h.2
    have hx : Draft.toDouble (Json.ofDouble x).draft = .ok x := by
      rw [Json.ofDouble, dif_pos finite]
      exact Draft.toDouble_draft h.1
    exact Value.ofDraft_object (i := 2) rfl hdown (congrArg (Except.map _) hx)
  | string s =>
    obtain ⟨deeper, hdown, -⟩ := Draft.Source.Holds.down hroom
    exact Value.ofDraft_object (i := 3) rfl hdown rfl
  | boolean b =>
    obtain ⟨deeper, hdown, -⟩ := Draft.Source.Holds.down hroom
    exact Value.ofDraft_object (i := 4) rfl hdown rfl
  | json d =>
    obtain ⟨deeper, hdown, hroom⟩ := Draft.Source.Holds.down hroom
    have hd := Document.ofDraft_draft h.1 (hroom.mono (Nat.le_max_left _ _))
    exact Value.ofDraft_object (i := 5) rfl hdown (congrArg (Except.map _) hd)
  | uuid u =>
    obtain ⟨deeper, hdown, -⟩ := Draft.Source.Holds.down hroom
    exact Value.ofDraft_object (i := 6) rfl hdown (congrArg (Except.map _) (Draft.toParsed_string h.1))
  | bytes bs =>
    obtain ⟨deeper, hdown, hroom⟩ := Draft.Source.Holds.down hroom
    obtain ⟨deepest, hdeeper, -⟩ := Draft.Source.Holds.down (hroom.mono (Nat.le_max_left _ _))
    exact Value.ofDraft_object (i := 7) rfl hdown (congrArg (Except.map _) (Draft.toList_octets bs hdeeper))
  | date d =>
    obtain ⟨deeper, hdown, -⟩ := Draft.Source.Holds.down hroom
    exact Value.ofDraft_object (i := 8) rfl hdown (congrArg (Except.map _) (Draft.toParsed_string h.1))
  | timestamp t =>
    obtain ⟨deeper, hdown, -⟩ := Draft.Source.Holds.down hroom
    exact Value.ofDraft_object (i := 9) rfl hdown (congrArg (Except.map _) (Draft.toParsed_string h.1))
  | null => exact Draft.toChoice_string Value.nodup_choices (List.mem_of_getElem? (i := 10) rfl) source

/-! ## What conditions hold -/

/-- An operator is read as it was written. -/
theorem Operator.ofDraft_name (op : Operator) (source : Draft.Source) : Operator.ofDraft source (.string op.name) = .ok op := by
  have hop : op ∈ Operator.all := by cases op <;> decide
  have hnames : ((Operator.all.map fun op => (op.name, Draft.Choice.bare op)).map (·.1)).Nodup := by decide +kernel
  exact Draft.toChoice_string hnames (List.mem_map.2 ⟨op, hop, rfl⟩) source

/-- Two things joined by an operator are read as they were written. -/
theorem Condition.toRecord_joined {α : Type} {name : String} (hname : name ≠ "operator")
    {parts : Draft.Source → Draft → Except Fault α} {d : Draft} {x : α} (hx : parts .kept d = .ok x) (op : Operator) :
    Draft.toRecord (Condition.joinedSlots name parts) Draft.ignoreOther ⟨none, none⟩ (Condition.ofJoined name) .kept
      (.object [(.string name, d), (.string "operator", .string op.name)]) = .ok (x, op) := by
  have hnames : ((Condition.joinedSlots name parts .kept).map (·.name)).Nodup := by
    change [name, "operator"].Nodup
    simp [hname]
  have hmembers : Draft.fillMembers (Condition.joinedSlots name parts .kept) (Draft.ignoreOther .kept) ⟨none, none⟩
      [(.string name, d), (.string "operator", .string op.name)] = .ok ⟨some x, some op⟩ := by
    refine (Draft.fillMembers_cons hnames (i := 0) rfl rfl (congrArg (Except.map _) hx) _).trans ?_
    exact Draft.fillMembers_cons hnames (i := 1) rfl rfl (congrArg (Except.map _) (op.ofDraft_name _)) []
  exact Draft.toRecord_object rfl hmembers rfl

/-- A map of fields is read as it was written. -/
theorem FieldMap.ofDraft_members {m : FieldMap} (h : ∀ e ∈ m.fields.entries, e.2.Storable) :
    FieldMap.ofDraft .kept (.object (Json.draftEntries m.members)) = .ok m := by
  have hentries : Draft.toEntries Value.ofDraft .kept (Json.object (m.fields.entries.map fun e => (e.1, e.2.toJson))).draft =
      .ok m.fields.entries :=
    Draft.toEntries_draft rfl fun e he => Value.ofDraft_toJson (h e he) (Draft.Source.holds_kept _)
  have hfields : Bindings.ofList m.fields.entries = m.fields := Bindings.ext (Entries.ofList_of_rising m.fields.rising)
  have hname : "fields" ≠ "operator" := by decide
  rw [FieldMap.ofDraft]
  refine (congrArg (Except.map _) (Condition.toRecord_joined hname hentries m.operator)).trans ?_
  change Except.ok (FieldMap.mk (Bindings.ofList m.fields.entries) m.operator) = .ok m
  rw [hfields]

/-- A list of conditions is read as it was written, if each of them is. -/
theorem Condition.listOfDraftWith_members {condition : Draft.Source → Draft → Except Fault Condition} {items : List Condition}
    (h : ∀ c ∈ items, condition .kept c.toJson.draft = .ok c) (op : Operator) :
    Condition.listOfDraftWith condition .kept (.object (Json.draftEntries (Condition.list items op).members)) =
      .ok (.list items op) := by
  have hjson : Condition.toJsonItems items = items.map Condition.toJson := by
    clear h
    induction items with
    | nil => rfl
    | cons c items ih =>
      rw [Condition.toJsonItems, ih]
      rfl
  have hitems : Draft.toList condition .kept (Json.array (Condition.toJsonItems items)).draft = .ok items := by
    rw [hjson]
    exact Draft.toList_draft rfl h
  have hname : "items" ≠ "operator" := by decide
  rw [Condition.listOfDraftWith, Condition.members]
  exact congrArg (Except.map _) (Condition.toRecord_joined hname hitems op)

/-- An expression is read as it was written, if its operands are. -/
theorem Expr.ofDraftWith_members {condition : Draft.Source → Draft → Except Fault Condition} {left right : Operand}
    (hleft : Operand.ofDraftWith condition .kept left.toJson.draft = .ok left)
    (hright : Operand.ofDraftWith condition .kept right.toJson.draft = .ok right) (op : Operator) :
    Expr.ofDraftWith condition .kept (.object (Json.draftEntries (Condition.expr ⟨left, op, right⟩).members)) =
      .ok ⟨left, op, right⟩ := by
  have hnames : ((Expr.slots condition .kept).map (·.name)).Nodup := show ["left", "operator", "right"].Nodup by decide
  have hmembers : Draft.fillMembers (Expr.slots condition .kept) (Draft.ignoreOther .kept) ⟨none, none, none⟩
      (Json.draftEntries (Condition.expr ⟨left, op, right⟩).members) = .ok ⟨some left, some op, some right⟩ := by
    rw [Condition.members]
    refine (Draft.fillMembers_cons hnames (i := 0) rfl rfl (congrArg (Except.map _) hleft) _).trans ?_
    refine (Draft.fillMembers_cons hnames (i := 1) rfl rfl (congrArg (Except.map _) (op.ofDraft_name _)) _).trans ?_
    exact Draft.fillMembers_cons hnames (i := 2) rfl rfl (congrArg (Except.map _) hright) []
  exact Draft.toRecord_object rfl hmembers rfl

/-- Text of the caller's is read as it was written. -/
theorem Condition.rawOfDraft_members (text : String) :
    Condition.rawOfDraft .kept (.object (Json.draftEntries (Condition.raw text).members)) = .ok text := by
  have hnames : ((Condition.rawSlots .kept).map (·.name)).Nodup := show ["text"].Nodup by decide
  have hmembers : Draft.fillMembers (Condition.rawSlots .kept) (Draft.ignoreOther .kept) none
      (Json.draftEntries (Condition.raw text).members) = .ok (some text) := by
    rw [Condition.members]
    exact Draft.fillMembers_cons hnames (i := 0) rfl rfl rfl []
  exact Draft.toRecord_object rfl hmembers rfl

/-- The values of an operand: that which it is, or those in the condition that it is. -/
def Operand.values (o : Operand) : List Value := o.value?.toList ++ o.nodes.flatMap Condition.ownValues

/-- What is asked of all values of an expression is asked of those of its operands. -/
theorem Condition.forall_values_expr {p : Value → Prop} {left right : Operand} {op : Operator}
    (h : ∀ v ∈ (Condition.expr ⟨left, op, right⟩).values, p v) : (∀ v ∈ left.values, p v) ∧ ∀ v ∈ right.values, p v := by
  unfold Condition.values at h
  rw [Condition.nodes, List.flatMap_cons, List.flatMap_append, List.forall_mem_append, List.forall_mem_append] at h
  obtain ⟨hsides, hleft, hright⟩ := h
  obtain ⟨hleftSide, hrightSide⟩ := List.forall_mem_append.1 hsides
  exact ⟨List.forall_mem_append.2 ⟨hleftSide, hleft⟩, List.forall_mem_append.2 ⟨hrightSide, hright⟩⟩

/-- What is asked of all values of a list is asked of those of its items. -/
theorem Condition.forall_values_list {p : Value → Prop} {items : List Condition} {op : Operator}
    (h : ∀ v ∈ (Condition.list items op).values, p v) : ∀ c ∈ items, ∀ v ∈ c.values, p v := by
  unfold Condition.values at h
  rw [Condition.nodes, List.flatMap_cons, List.forall_mem_append] at h
  replace h := h.2
  induction items with
  | nil => exact List.forall_mem_nil _
  | cons c items ih =>
    rw [Condition.nodesOf, List.flatMap_append, List.forall_mem_append] at h
    exact List.forall_mem_cons.2 ⟨h.1, ih h.2⟩

/-- An operand is read as it was written, if it is no condition or the condition is. -/
theorem Operand.ofDraftWith_toJson {condition : Draft.Source → Draft → Except Fault Condition} {o : Operand}
    (hvalues : ∀ v ∈ o.values, v.Storable) (hcondition : ∀ c, o = .condition c → condition .kept c.toJson.draft = .ok c) :
    Operand.ofDraftWith condition .kept o.toJson.draft = .ok o := by
  have hnames : ["condition", "field", "value"].Nodup := by decide
  unfold Operand.ofDraftWith
  cases o with
  | condition c =>
    have hc := hcondition c rfl
    rw [Operand.toJson]
    exact Draft.toChoice_object (by exact hnames) (List.mem_of_getElem? (i := 0) rfl) rfl (congrArg (Except.map _) hc)
  | field name =>
    rw [Operand.toJson]
    exact Draft.toChoice_object (by exact hnames) (List.mem_of_getElem? (i := 1) rfl) rfl rfl
  | value v =>
    have hv := Value.ofDraft_toJson (hvalues v List.mem_cons_self) (Draft.Source.holds_kept _)
    rw [Operand.toJson]
    exact Draft.toChoice_object (by exact hnames) (List.mem_of_getElem? (i := 2) rfl) rfl (congrArg (Except.map _) hv)

/-! ## Floats -/

/-- The floats that are written for a value read back if its scalars do. -/
theorem Value.floats_toJson {v : Value} (h : v.ReadsBack) : ∀ x ∈ v.toJson.floats, x.ReadsBack := by
  cases v with
  | float x =>
    intro y hy
    rw [Value.toJson, Json.ofDouble] at hy
    split at hy
    · rw [List.mem_singleton.1 hy]
      exact h
    · exact absurd hy List.not_mem_nil
  | json d =>
    intro y hy
    rw [Value.toJson, Json.floats, Json.floatsOfEntries, Json.floatsOfEntries, List.append_nil] at hy
    exact h y hy
  | bytes bs =>
    have hnone : ∀ bs : List UInt8, Json.floatsOf (bs.map Json.ofOctet) = [] := by
      intro bs
      induction bs with
      | nil => rfl
      | cons b bs ih =>
        rw [List.map_cons, Json.floatsOf, ih]
        rfl
    intro y hy
    rw [Value.toJson, Json.floats, Json.floatsOfEntries, Json.floats, hnone] at hy
    exact absurd hy List.not_mem_nil
  | _ => exact List.forall_mem_nil _

/-- The floats that are written for a map of fields read back if the scalars of its values do. -/
theorem FieldMap.floats_members {m : FieldMap} (h : ∀ e ∈ m.fields.entries, e.2.ReadsBack) :
    ∀ x ∈ Json.floatsOfEntries m.members, x.ReadsBack := by
  have hentries : ∀ es : List (String × Value), (∀ e ∈ es, e.2.ReadsBack) →
      ∀ x ∈ Json.floatsOfEntries (es.map fun e => (e.1, e.2.toJson)), x.ReadsBack := by
    intro es
    induction es with
    | nil => exact fun _ => List.forall_mem_nil _
    | cons e es ih =>
      intro hes
      obtain ⟨he, hes⟩ := List.forall_mem_cons.1 hes
      exact List.forall_mem_append.2 ⟨Value.floats_toJson he, ih hes⟩
  exact List.forall_mem_append.2 ⟨hentries m.fields.entries h, List.forall_mem_nil _⟩

/-- The values of the entries of a map are the values of the condition that the map is. -/
theorem FieldMap.forall_entries {p : Value → Prop} {m : FieldMap} (h : ∀ v ∈ (Condition.fieldMap m).values, p v) :
    ∀ e ∈ m.fields.entries, p e.2 := by
  intro e he
  refine h e.2 ?_
  rw [Condition.values, Condition.nodes, List.flatMap_singleton]
  exact List.mem_map_of_mem he

mutual

/-- The floats that are written for a condition read back if the scalars of its values do. -/
theorem Condition.floats_members : ∀ c : Condition, (∀ v ∈ c.values, v.ReadsBack) →
    ∀ x ∈ Json.floatsOfEntries c.members, x.ReadsBack
  | .expr ⟨left, op, right⟩, h => by
    obtain ⟨hleft, hright⟩ := Condition.forall_values_expr h
    have hleftFloats := Operand.floats_toJson left hleft
    have hrightFloats := Operand.floats_toJson right hright
    have hfloats : Json.floatsOfEntries (Condition.expr ⟨left, op, right⟩).members =
        left.toJson.floats ++ right.toJson.floats := by
      simp only [Condition.members, Json.floatsOfEntries, Json.floats, List.nil_append, List.append_nil]
    rw [hfloats]
    exact List.forall_mem_append.2 ⟨hleftFloats, hrightFloats⟩
  | .list items op, h => by
    have hitems := Condition.floats_toJsonItems items (Condition.forall_values_list h)
    rw [Condition.members]
    exact List.forall_mem_append.2 ⟨hitems, List.forall_mem_nil _⟩
  | .fieldMap m, h => by
    rw [Condition.members]
    exact FieldMap.floats_members (FieldMap.forall_entries h)
  | .raw text, _ => by
    rw [Condition.members]
    exact List.forall_mem_nil _

theorem Condition.floats_toJsonItems : ∀ cs : List Condition, (∀ c ∈ cs, ∀ v ∈ c.values, v.ReadsBack) →
    ∀ x ∈ Json.floatsOf (Condition.toJsonItems cs), x.ReadsBack
  | [], _ => List.forall_mem_nil _
  | c :: cs, h => by
    obtain ⟨hc, hcs⟩ := List.forall_mem_cons.1 h
    have hfloats := Condition.floats_members c hc
    rw [Condition.toJsonItems]
    exact List.forall_mem_append.2 ⟨hfloats, Condition.floats_toJsonItems cs hcs⟩

theorem Operand.floats_toJson : ∀ o : Operand, (∀ v ∈ o.values, v.ReadsBack) → ∀ x ∈ o.toJson.floats, x.ReadsBack
  | .condition c, h => by
    have hfloats := Condition.floats_members c h
    rw [Operand.toJson]
    exact List.forall_mem_append.2 ⟨hfloats, List.forall_mem_nil _⟩
  | .field name, _ => by
    rw [Operand.toJson]
    exact List.forall_mem_nil _
  | .value v, h => by
    have hfloats := Value.floats_toJson (h v List.mem_cons_self)
    rw [Operand.toJson]
    exact List.forall_mem_append.2 ⟨hfloats, List.forall_mem_nil _⟩

end

/-! ## Whole conditions -/

/-- A kind is read as it was written. -/
theorem Condition.Kind.ofDraft_name (k : Condition.Kind) (source : Draft.Source) :
    Condition.Kind.ofDraft source (.string k.name) = .ok k := by
  cases k <;> rfl

/-- Members of which none is called `kind` are all kept. -/
theorem Condition.takeKind_draftEntries (kind : Condition.Kind) {es : List (String × Json)} (hkeys : ∀ e ∈ es, e.1 ≠ "kind")
    (h : ∀ x ∈ Json.floatsOfEntries es, x.ReadsBack) {source : Draft.Source} (hroom : source.Holds (Json.heightOfEntries es)) :
    Condition.takeKind source (some kind) (Json.draftEntries es) = .ok (kind, Json.draftEntries es) := by
  induction es with
  | nil => rfl
  | cons e es ih =>
    obtain ⟨key, x⟩ := e
    obtain ⟨hkey, hkeys⟩ := List.forall_mem_cons.1 hkeys
    obtain ⟨hx, hes⟩ := List.forall_mem_append.1 h
    have hkeep := Draft.keep_draft hx (hroom.mono (Nat.le_max_left _ _))
    rw [Json.draftEntries, Condition.takeKind, if_neg hkey, hkeep, ih hkeys hes (hroom.mono (Nat.le_max_right _ _))]
    rfl

/-- No member of a condition but its kind is called `kind`. -/
theorem Condition.key_ne_kind (c : Condition) : ∀ e ∈ c.members, e.1 ≠ "kind" := by
  have hkeys : "kind" ∉ c.members.map (·.1) := by
    cases c with
    | expr e =>
      obtain ⟨left, op, right⟩ := e
      rw [Condition.members]
      exact (by decide : "kind" ∉ ["left", "operator", "right"])
    | list items op =>
      rw [Condition.members]
      exact (by decide : "kind" ∉ ["items", "operator"])
    | fieldMap m =>
      rw [Condition.members]
      exact (by decide : "kind" ∉ ["fields", "operator"])
    | raw text =>
      rw [Condition.members]
      exact (by decide : "kind" ∉ ["text"])
  intro e he hkind
  exact hkeys (hkind ▸ List.mem_map_of_mem he)

/-- A condition that was written is parted into its kind and its other members. -/
theorem Condition.split_toJson {c : Condition} (h : ∀ v ∈ c.values, v.ReadsBack) {source : Draft.Source}
    (hroom : source.Holds c.toJson.height) :
    Condition.split source c.toJson.draft = .ok (c.kind, .object (Json.draftEntries c.members)) := by
  obtain ⟨deeper, hdown, hroom⟩ := Draft.Source.Holds.down hroom
  have hothers := Condition.takeKind_draftEntries c.kind c.key_ne_kind (Condition.floats_members c h)
    (hroom.mono (Nat.le_max_right _ _))
  have hkind : Condition.takeKind deeper none ((.string "kind", .string c.kind.name) :: Json.draftEntries c.members) =
      .ok (c.kind, Json.draftEntries c.members) := by
    rw [Condition.takeKind, if_pos rfl, c.kind.ofDraft_name]
    exact hothers
  change Condition.split source (.object ((.string "kind", .string c.kind.name) :: Json.draftEntries c.members)) = _
  rw [Condition.split, hdown]
  exact congrArg (· >>= fun r => Except.ok (r.1, Draft.object r.2)) hkind

/-- A condition that is an operand is nested a level less than the operand. -/
theorem Operand.height_condition (c : Condition) : (Operand.condition c).toJson.height = c.toJson.height + 1 := by
  rw [Operand.toJson]
  exact congrArg (· + 1) (Nat.max_zero _)

/-- An item of a list is nested no deeper than the items are. -/
theorem Condition.height_le_of_mem {c : Condition} {items : List Condition} (hc : c ∈ items) :
    c.toJson.height ≤ Json.heightOf (Condition.toJsonItems items) := by
  induction items with
  | nil => exact absurd hc List.not_mem_nil
  | cons c' items ih =>
    rw [Condition.toJsonItems, Json.heightOf]
    rcases List.mem_cons.1 hc with rfl | hc
    · exact Nat.le_max_left _ _
    · exact Nat.le_trans (ih hc) (Nat.le_max_right _ _)

/-- A condition is read as it was written, where there is room for its levels. The induction is on the number of conditions
that may be nested in each other: each takes a level of the document. -/
theorem Condition.ofDraftWithin_toJson {c : Condition} (h : ∀ v ∈ c.values, v.Storable) {fuel : Nat}
    (hfuel : c.toJson.height < fuel) {source : Draft.Source} (hroom : source.Holds c.toJson.height) :
    Condition.ofDraftWithin fuel source c.toJson.draft = .ok c := by
  induction fuel generalizing c source with
  | zero => exact absurd hfuel (Nat.not_lt_zero _)
  | succ fuel ih =>
    have hsplit := Condition.split_toJson (fun v hv => (h v hv).1) hroom
    rw [Condition.ofDraftWithin, hsplit]
    change Condition.ofBody (Condition.ofDraftWithin fuel) c.kind (.object (Json.draftEntries c.members)) = .ok c
    cases c with
    | expr e =>
      obtain ⟨left, op, right⟩ := e
      obtain ⟨hleft, hright⟩ := Condition.forall_values_expr h
      simp only [Condition.toJson, Condition.members, Json.height, Json.heightOfEntries] at hfuel
      have hread : ∀ o : Operand, (∀ v ∈ o.values, v.Storable) → o.toJson.height ≤ fuel →
          Operand.ofDraftWith (Condition.ofDraftWithin fuel) .kept o.toJson.draft = .ok o := by
        intro o ho hheight
        refine Operand.ofDraftWith_toJson ho fun c hc => ?_
        subst hc
        rw [Operand.height_condition] at hheight
        exact ih ho (by omega) (Draft.Source.holds_kept _)
      exact congrArg (Except.map _) (Expr.ofDraftWith_members (hread left hleft (by omega)) (hread right hright (by omega)) op)
    | list items op =>
      have hitems := Condition.forall_values_list h
      simp only [Condition.toJson, Condition.members, Json.height, Json.heightOfEntries] at hfuel
      refine Condition.listOfDraftWith_members (fun c hc => ?_) op
      have hle := Condition.height_le_of_mem hc
      exact ih (hitems c hc) (by omega) (Draft.Source.holds_kept _)
    | fieldMap m => exact congrArg (Except.map _) (FieldMap.ofDraft_members (FieldMap.forall_entries h))
    | raw text => exact congrArg (Except.map _) (Condition.rawOfDraft_members text)

/-- Reading undoes writing. A condition whose floats are finite, and whose document is nested no deeper than a text may be, is
read from the text that is written for it: the very same condition, and so one that equals it, of whatever kinds and operators
its parts are and whatever texts and documents stand in it. Of its floats, uuids, dates and timestamps, those in its documents
included, no more is asked than that each is read as what it is written for. -/
theorem Condition.decode_toJson {c : Condition} (finite : ∀ v ∈ c.values, v.isFinite = true)
    (scalars : ∀ v ∈ c.values, v.ReadsBack) (nested : c.toJson.height ≤ 127) :
    Draft.decode Condition.ofDraft c.toJson.text = .ok c ∧ c.same c = true := by
  have hstorable : ∀ v ∈ c.values, v.Storable := fun v hv => ⟨scalars v hv, finite v hv⟩
  have hfloats : ∀ x ∈ c.toJson.floats, x.ReadsBack := Condition.floats_members c scalars
  have hread : Condition.ofDraft .fresh c.toJson.draft = .ok c := by
    rw [Condition.ofDraft, Json.height_draft]
    exact Condition.ofDraftWithin_toJson hstorable (Nat.lt_succ_self _) nested
  exact ⟨Draft.decode_text hfloats hread, c.same_self⟩

/-- A condition of every kind, with operands and values of every kind, in which texts, fields and a document are called what
kinds are called. -/
def Condition.assorted : Condition :=
  .list
    [.expr ⟨.condition (.ofFields .or [("kind", .int (-1)), ("condition", .uint 18446744073709551615), ("Null", .null)]), .and,
        .condition (.raw "\x7b\"kind\":\"raw\"\x7d")⟩,
      .expr ⟨.field "Int", .like, .value (.string "\"\\\n\x01 é")⟩,
      .expr ⟨.value (.float ⟨0x3FB999999999999A⟩), .ltEq, .value (.bytes [0, 127, 255])⟩,
      .expr ⟨.value (.json (.ofJson (.object
          [("kind", .string "list"), ("Int", .array [.null, .number (.float ⟨0x4202A05F20000000⟩ (by decide))]),
            ("items", .object [])]))), .notEq, .value (.boolean false)⟩,
      .expr ⟨.value (.uuid ⟨0x67E5504410B1426F9247BB680E5FE0C8⟩), .gt, .value (.date ⟨2024, 2, 29, by decide⟩)⟩,
      .expr ⟨.value (.timestamp ⟨⟨-1, 12, 31, by decide⟩, 86399, 1500000000, by decide⟩), .eq, .field "kind"⟩] .or

/-- The condition is read from its text, in which each of those names stands where it is none of a kind. -/
theorem Condition.decode_toJson_assorted :
    (∀ v ∈ Condition.assorted.values, v.isFinite = true) ∧ (∀ v ∈ Condition.assorted.values, v.ReadsBack) ∧
      Condition.assorted.toJson.height ≤ 127 ∧
      Draft.decode Condition.ofDraft Condition.assorted.toJson.text = .ok Condition.assorted ∧
      Condition.assorted.same Condition.assorted = true := by
  have finite : ∀ v ∈ Condition.assorted.values, v.isFinite = true := by decide +kernel
  have scalars : ∀ v ∈ Condition.assorted.values, v.ReadsBack := by decide +kernel
  have nested : Condition.assorted.toJson.height ≤ 127 := by decide +kernel
  exact ⟨finite, scalars, nested, Condition.decode_toJson finite scalars nested⟩

end WhereClause
