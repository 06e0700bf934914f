import WhereClause.Outcome
import WhereClause.Schema.Origin

/-!
# Records: what a record that has been read was made of

A record is read by taking in its members one after the other, so that what it holds of a member has to be followed through
all those that come before and after. It is what was made of the member of that name, the first of the object, or of the item
in that place of the array (`Draft.member_of_toRecord`). So the fields of an entity schema that has been read are those that
the document describes (`EntitySchema.described_of_declarationOfDraft`).
-/

namespace WhereClause

/-! ## Members -/

/-- A draft that is read as a text is a string. -/
theorem Draft.text?_of_toText {d : Draft} {s : String} (h : d.toText = .ok s) : d.text? = some s := by
  cases d with
  | string t => exact congrArg some (Except.ok.inj h)
  | _ => nomatch h

theorem Draft.member?_cons_self (name : String) (place : Nat) (d : Draft) (members : List (Draft × Draft)) :
    (Draft.object ((.string name, d) :: members)).member? name place = some d := by
  simp only [Draft.member?, Draft.text?, List.find?, beq_self_eq_true, Option.map_some]

theorem Draft.member?_cons_of_ne {key name : String} (h : key ≠ name) (place : Nat) (d : Draft)
    (members : List (Draft × Draft)) :
    (Draft.object ((.string key, d) :: members)).member? name place = (Draft.object members).member? name place := by
  have hskip : (some key == some name) = false := beq_eq_false_iff_ne.2 fun e => h (Option.some.inj e)
  simp only [Draft.member?, Draft.text?, List.find?, hskip]

/-- A part of a record under construction is told by a member: its slot stands in the member's place, takes in what is made of
the member, and knows whether it has; and no other slot touches the part. -/
structure Draft.Slot.Fills {σ α : Type} (slots : List (Draft.Slot σ)) (name : String) (place : Nat) (part : σ → Option α)
    (make : Draft → Except Fault α) : Prop where
  own : ∃ slot, slots[place]? = some slot ∧ slot.name = name ∧ (∀ p, slot.filled p = (part p).isSome) ∧
    ∀ p d p', slot.fill p d = .ok p' → ∃ x, make d = .ok x ∧ part p' = some x
  others : ∀ i slot, slots[i]? = some slot → i ≠ place →
    slot.name ≠ name ∧ ∀ p d p', slot.fill p d = .ok p' → part p' = part p

section Members

variable {σ α : Type} {slots : List (Draft.Slot σ)} {name : String} {place : Nat} {part : σ → Option α}
  {make : Draft → Except Fault α}

/-- The slot of a name is that of the part if the name is the part's, and else leaves the part as it is. -/
theorem Draft.Slot.Fills.of_find? (hfills : Draft.Slot.Fills slots name place part make) {key : String} {slot : Draft.Slot σ}
    (hfound : (slots.find? fun slot => slot.name == key) = some slot) :
    key = name ∧ (∀ p, slot.filled p = (part p).isSome) ∧
        (∀ p d p', slot.fill p d = .ok p' → ∃ x, make d = .ok x ∧ part p' = some x) ∨
      key ≠ name ∧ ∀ p d p', slot.fill p d = .ok p' → part p' = part p := by
  obtain ⟨own, hplace, hname, hfilled, hfill⟩ := hfills.own
  have hkey : slot.name = key := by
    have := List.find?_some hfound
    exact beq_iff_eq.1 this
  obtain ⟨i, hi⟩ := List.getElem?_of_mem (List.mem_of_find?_eq_some hfound)
  by_cases hip : i = place
  · rw [hip, hplace] at hi
    cases hi
    exact .inl ⟨hkey.symm.trans hname, hfilled, hfill⟩
  · obtain ⟨hne, hkeep⟩ := hfills.others i slot hi hip
    exact .inr ⟨hkey ▸ hne, hkeep⟩

/-- A part that is filled stays as it is when members are taken in. -/
theorem Draft.Slot.Fills.fillMembers_of_some (hfills : Draft.Slot.Fills slots name place part make)
    {other : String → Draft → Except Fault Unit} {members : List (Draft × Draft)} {p p' : σ} {x : α}
    (h : Draft.fillMembers slots other p members = .ok p') (hx : part p = some x) : part p' = some x := by
  induction members generalizing p with
  | nil =>
    rw [Draft.fillMembers] at h
    cases h
    exact hx
  | cons m members ih =>
    obtain ⟨k, d⟩ := m
    cases k with
    | string key =>
      rw [Draft.fillMembers] at h
      split at h
      · rename_i slot hfound
        split at h
        · nomatch h
        · rename_i hempty
          obtain ⟨p₁, hp₁, hrest⟩ := bind_eq_ok_iff.1 h
          rcases hfills.of_find? hfound with ⟨-, hfilled, -⟩ | ⟨-, hkeep⟩
          · rw [hfilled, hx] at hempty
            exact absurd rfl hempty
          · exact ih hrest (hkeep p d p₁ hp₁ ▸ hx)
      · obtain ⟨-, -, hrest⟩ := bind_eq_ok_iff.1 h
        exact ih hrest hx
    | _ => nomatch h

/-- A part that is empty holds, after members have been taken in, what was made of the first member for it. -/
theorem Draft.Slot.Fills.fillMembers (hfills : Draft.Slot.Fills slots name place part make)
    {other : String → Draft → Except Fault Unit} {members : List (Draft × Draft)} {p p' : σ} {x : α}
    (h : Draft.fillMembers slots other p members = .ok p') (hp : part p = none) (hx : part p' = some x) :
    ∃ d, (Draft.object members).member? name place = some d ∧ make d = .ok x := by
  induction members generalizing p with
  | nil =>
    rw [Draft.fillMembers] at h
    cases h
    rw [hp] at hx
    nomatch hx
  | cons m members ih =>
    obtain ⟨k, d⟩ := m
    cases k with
    | string key =>
      -- a member for another part is neither the one that is looked for nor does it change the part
      have hother : key ≠ name → ∀ p₁, part p₁ = none → Draft.fillMembers slots other p₁ members = .ok p' →
          ∃ d', (Draft.object ((.string key, d) :: members)).member? name place = some d' ∧ make d' = .ok x := by
        intro hkey p₁ hp₁ hrest
        obtain ⟨d', hd', hmake⟩ := ih hrest hp₁
        exact ⟨d', (Draft.member?_cons_of_ne hkey place d members).trans hd', hmake⟩
      rw [Draft.fillMembers] at h
      split at h
      · rename_i slot hfound
        split at h
        · nomatch h
        · obtain ⟨p₁, hp₁, hrest⟩ := bind_eq_ok_iff.1 h
          rcases hfills.of_find? hfound with ⟨rfl, -, hfill⟩ | ⟨hkey, hkeep⟩
          · obtain ⟨y, hy, hpart⟩ := hfill p d p₁ hp₁
            have hxy := hfills.fillMembers_of_some hrest hpart
            rw [hx] at hxy
            cases hxy
            exact ⟨d, Draft.member?_cons_self key place d members, hy⟩
          · exact hother hkey p₁ (hkeep p d p₁ hp₁ ▸ hp) hrest
      · rename_i hnone
        obtain ⟨-, -, hrest⟩ := bind_eq_ok_iff.1 h
        refine hother (fun hkey => ?_) p hp hrest
        obtain ⟨own, hplace, hname, -, -⟩ := hfills.own
        exact List.find?_eq_none.1 hnone own (List.mem_of_getElem? hplace) (beq_iff_eq.2 (hname.trans hkey.symm))
    | _ => nomatch h

/-- A part that is empty holds, after items have been taken in by the slots from a place on, what was made of the item in the
part's place. -/
theorem Draft.Slot.Fills.fillRow (hfills : Draft.Slot.Fills slots name place part make) {items : List Draft} {i : Nat}
    {p p' : σ} {x : α} (h : Draft.fillRow (slots.drop i) p items = .ok p') (hx : part p' = some x) :
    part p = some x ∨ ∃ j d, i + j = place ∧ items[j]? = some d ∧ make d = .ok x := by
  induction items generalizing i p with
  | nil =>
    rw [Draft.fillRow] at h
    cases h
    exact .inl hx
  | cons d items ih =>
    cases hslots : slots.drop i with
    | nil =>
      rw [hslots] at h
      nomatch h
    | cons slot rest =>
      have hslot : slots[i]? = some slot := by
        rw [← Nat.add_zero i, ← List.getElem?_drop, hslots]
        rfl
      have hrest : rest = slots.drop (i + 1) := by rw [← List.tail_drop, hslots, List.tail_cons]
      rw [hslots, Draft.fillRow, hrest] at h
      obtain ⟨p₁, hp₁, h⟩ := bind_eq_ok_iff.1 h
      rcases ih h with hpart | ⟨j, d', hj, hd', hmake⟩
      · by_cases hi : i = place
        · obtain ⟨own, hplace, -, -, hfill⟩ := hfills.own
          rw [hi, hplace] at hslot
          cases hslot
          obtain ⟨y, hy, hpart₁⟩ := hfill p d p₁ hp₁
          rw [hpart] at hpart₁
          cases hpart₁
          exact .inr ⟨0, d, hi, rfl, hy⟩
        · exact .inl ((hfills.others i slot hslot hi).2 p d p₁ hp₁ ▸ hpart)
      · exact .inr ⟨j + 1, d', by omega, hd', hmake⟩

/-- Of two slots, each of which takes in what is made of its member, the first tells its part, if the second leaves that part
as it is. -/
theorem Draft.Slot.fills_first {β : Type} {otherName : String} {otherFilled : σ → Bool} {otherMake : Draft → Except Fault β}
    {set : σ → α → σ} {otherSet : σ → β → σ} (hname : otherName ≠ name) (hset : ∀ p x, part (set p x) = some x)
    (hother : ∀ p y, part (otherSet p y) = part p) :
    Draft.Slot.Fills [⟨name, fun p => (part p).isSome, fun p d => (make d).map (set p)⟩,
      ⟨otherName, otherFilled, fun p d => (otherMake d).map (otherSet p)⟩] name 0 part make where
  own := by
    refine ⟨_, rfl, rfl, fun _ => rfl, fun p d p' h => ?_⟩
    obtain ⟨x, hx, rfl⟩ := map_eq_ok_iff.1 h
    exact ⟨x, hx, hset p x⟩
  others i slot hslot hi := by
    match i with
    | 0 => exact absurd rfl hi
    | 1 =>
      cases hslot
      refine ⟨hname, fun p d p' h => ?_⟩
      obtain ⟨y, -, rfl⟩ := map_eq_ok_iff.1 h
      exact hother p y

/-- Of two slots, each of which takes in what is made of its member, the second tells its part, if the first leaves that part
as it is. -/
theorem Draft.Slot.fills_second {β : Type} {otherName : String} {otherFilled : σ → Bool} {otherMake : Draft → Except Fault β}
    {set : σ → α → σ} {otherSet : σ → β → σ} (hname : otherName ≠ name) (hset : ∀ p x, part (set p x) = some x)
    (hother : ∀ p y, part (otherSet p y) = part p) :
    Draft.Slot.Fills [⟨otherName, otherFilled, fun p d => (otherMake d).map (otherSet p)⟩,
      ⟨name, fun p => (part p).isSome, fun p d => (make d).map (set p)⟩] name 1 part make where
  own := by
    refine ⟨_, rfl, rfl, fun _ => rfl, fun p d p' h => ?_⟩
    obtain ⟨x, hx, rfl⟩ := map_eq_ok_iff.1 h
    exact ⟨x, hx, hset p x⟩
  others i slot hslot hi := by
    match i with
    | 0 =>
      cases hslot
      refine ⟨hname, fun p d p' h => ?_⟩
      obtain ⟨y, -, rfl⟩ := map_eq_ok_iff.1 h
      exact hother p y
    | 1 => exact absurd rfl hi

end Members

/-- A record that is read was made of its members: what it held of each, at the end, was made of that member. -/
theorem Draft.member_of_toRecord {σ β : Type} {slots : Draft.Source → List (Draft.Slot σ)}
    {other : Draft.Source → String → Draft → Except Fault Unit} {start : σ} {finish : (String → Fault) → σ → Except Fault β}
    {source : Draft.Source} {d : Draft} {b : β} (h : d.toRecord slots other start finish source = .ok b) :
    ∃ inner missing p, finish missing p = .ok b ∧
      ∀ {α : Type} {name : String} {place : Nat} {part : σ → Option α} {make : Draft → Except Fault α} {x : α},
        Draft.Slot.Fills (slots inner) name place part make → part start = none → part p = some x →
          ∃ d', d.member? name place = some d' ∧ make d' = .ok x := by
  cases d with
  | object members =>
    obtain ⟨inner, -, h⟩ := bind_eq_ok_iff.1 h
    obtain ⟨p, hp, h⟩ := bind_eq_ok_iff.1 h
    exact ⟨inner, _, p, h, fun hfills hstart hx => hfills.fillMembers hp hstart hx⟩
  | array items =>
    obtain ⟨inner, -, h⟩ := bind_eq_ok_iff.1 h
    obtain ⟨p, hp, h⟩ := bind_eq_ok_iff.1 h
    refine ⟨inner, _, p, h, fun hfills hstart hx => ?_⟩
    rcases hfills.fillRow (i := 0) hp hx with hpart | ⟨j, d', hj, hd', hmake⟩
    · rw [hstart] at hpart
      nomatch hpart
    · rw [Nat.zero_add] at hj
      exact ⟨d', hj ▸ hd', hmake⟩
  | _ => nomatch h

/-- A part that has to be there is there. -/
theorem Draft.need_eq_ok_iff {α : Type} {missing : String → Fault} {name : String} {part : Option α} {x : α} :
    Draft.need missing name part = .ok x ↔ part = some x := by
  cases part with
  | none => exact ⟨nofun, nofun⟩
  | some y => exact ⟨fun h => congrArg some (Except.ok.inj h), fun h => congrArg Except.ok (Option.some.inj h)⟩

/-! ## Fields and schemas -/

/-- A field that is read is worded as it is: its name, and a name of its type. -/
theorem Field.exists_wording {source : Draft.Source} {d : Draft} {f : Field} (h : Field.ofDraft source d = .ok f) :
    ∃ type, Field.wording? d = some (f.name, type) ∧ ColumnType.ofName? type = some f.type := by
  obtain ⟨inner, missing, p, hp, hmember⟩ := Draft.member_of_toRecord h
  obtain ⟨name, hname, hp⟩ := bind_eq_ok_iff.1 hp
  obtain ⟨type, htype, hp⟩ := bind_eq_ok_iff.1 hp
  cases hp
  rw [Draft.need_eq_ok_iff] at hname htype
  have hfirst : Draft.Slot.Fills (Field.slots inner) "name" 0 Field.Parts.name Draft.toText :=
    Draft.Slot.fills_first (by decide) (fun _ _ => rfl) fun _ _ => rfl
  have hsecond : Draft.Slot.Fills (Field.slots inner) "data_type" 1 Field.Parts.type (ColumnType.ofDraft inner) :=
    Draft.Slot.fills_second (by decide) (fun _ _ => rfl) fun _ _ => rfl
  obtain ⟨nameDraft, hnameDraft, htext⟩ := hmember hfirst rfl hname
  obtain ⟨typeDraft, htypeDraft, hresolved⟩ := hmember hsecond rfl htype
  obtain ⟨word, hword, hresolved⟩ := bind_eq_ok_iff.1 hresolved
  refine ⟨word, ?_, ColumnType.resolve_eq_ok_iff.1 (mapError_eq_ok_iff.1 hresolved)⟩
  simp only [Field.wording?, hnameDraft, htypeDraft, Draft.text?_of_toText htext, Draft.text?_of_toText hword,
    Option.bind_eq_bind, Option.bind_some, Option.pure_def]

/-- Fields that are read one after the other are described as they are. -/
theorem Field.exists_wordings {source : Draft.Source} {ds : List Draft} {fields : List Field}
    (h : ds.mapM (Field.ofDraft source) = .ok fields) :
    ∃ wordings, ds.mapM Field.wording? = some wordings ∧ wordings.mapM Field.ofWording? = some fields := by
  induction ds generalizing fields with
  | nil =>
    cases h
    exact ⟨[], rfl, rfl⟩
  | cons d ds ih =>
    rw [List.mapM_cons] at h
    obtain ⟨f, hf, h⟩ := bind_eq_ok_iff.1 h
    obtain ⟨rest, hrest, h⟩ := bind_eq_ok_iff.1 h
    cases h
    obtain ⟨type, hwording, htype⟩ := Field.exists_wording hf
    obtain ⟨wordings, hwordings, hfields⟩ := ih hrest
    have hdescribed : Field.ofWording? (f.name, type) = some f := by rw [Field.ofWording?, htype, Option.map_some]
    refine ⟨(f.name, type) :: wordings, ?_, ?_⟩
    · rw [List.mapM_cons, hwording, hwordings]
      rfl
    · rw [List.mapM_cons, hdescribed, hfields]
      rfl

/-- The name and the fields of a schema that is read are those that the document describes. -/
theorem EntitySchema.described_of_declarationOfDraft {source : Draft.Source} {d : Draft} {name : String} {fields : List Field}
    (h : EntitySchema.declarationOfDraft source d = .ok (name, fields)) : EntitySchema.described? d = some (name, fields) := by
  obtain ⟨inner, missing, p, hp, hmember⟩ := Draft.member_of_toRecord h
  obtain ⟨partName, hname, hp⟩ := bind_eq_ok_iff.1 hp
  obtain ⟨partFields, hfields, hp⟩ := bind_eq_ok_iff.1 hp
  cases hp
  rw [Draft.need_eq_ok_iff] at hname hfields
  have hfirst : Draft.Slot.Fills (EntitySchema.slots inner) "name" 0 EntitySchema.Parts.name Draft.toText :=
    Draft.Slot.fills_first (by decide) (fun _ _ => rfl) fun _ _ => rfl
  have hsecond : Draft.Slot.Fills (EntitySchema.slots inner) "fields" 1 EntitySchema.Parts.fields
      (Draft.toList Field.ofDraft inner) :=
    Draft.Slot.fills_second (by decide) (fun _ _ => rfl) fun _ _ => rfl
  obtain ⟨nameDraft, hnameDraft, htext⟩ := hmember hfirst rfl hname
  obtain ⟨fieldsDraft, hfieldsDraft, hlist⟩ := hmember hsecond rfl hfields
  cases fieldsDraft with
  | array items =>
    obtain ⟨deeper, -, hitems⟩ := bind_eq_ok_iff.1 hlist
    obtain ⟨wordings, hwordings, hdescribed⟩ := Field.exists_wordings hitems
    simp only [EntitySchema.described?, EntitySchema.wording?, hnameDraft, hfieldsDraft, Draft.text?_of_toText htext,
      Draft.items?, hwordings, hdescribed, Option.bind_eq_bind, Option.bind_some, Option.pure_def]
  | _ => nomatch hlist

end WhereClause
