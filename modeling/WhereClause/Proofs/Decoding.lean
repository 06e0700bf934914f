import WhereClause.Proofs.Documents

/-!
# Decoding: what is made of what was written

The draft of a value holds the value, if its floats read back and there is room for its levels (`Draft.toJson_draft`). The
shapes that documents are made of are read as they were written, if their parts are: lists and entries, records with all their
members, and choices by their names (`Draft.toList_draft`, `Draft.toRecord_object`, `Draft.toChoice_object`). What is made of
the draft of a value is made of its text (`Draft.decode_text`).
-/

namespace WhereClause

/-! ## What the draft of a value holds -/

mutual

/-- The draft of a value is nested as deep as the value. -/
theorem Json.height_draft : ∀ j : Json, j.draft.height = j.height
  | .null | .bool _ | .number _ | .string _ => rfl
  | .array items => congrArg (· + 1) (Json.heightOf_draftItems items)
  | .object entries => congrArg (· + 1) (Json.heightOf_draftEntries entries)

theorem Json.heightOf_draftItems : ∀ items : List Json, Draft.heightOf (Json.draftItems items) = Json.heightOf items
  | [] => rfl
  | x :: xs => by rw [Json.draftItems, Draft.heightOf, Json.heightOf, Json.height_draft x, Json.heightOf_draftItems xs]

theorem Json.heightOf_draftEntries :
    ∀ entries : List (String × Json), Draft.heightOfMembers (Json.draftEntries entries) = Json.heightOfEntries entries
  | [] => rfl
  | (k, x) :: es => by
    rw [Json.draftEntries, Draft.heightOfMembers, Json.heightOfEntries, Json.height_draft x, Json.heightOf_draftEntries es]

end

/-- Whether there is room for so many levels where a value is read from. -/
def Draft.Source.Holds : Draft.Source → Nat → Prop
  | .text room, levels => levels ≤ room
  | .kept, _ => True

/-- In a part that was kept there is room for any number of levels. -/
theorem Draft.Source.holds_kept (n : Nat) : Draft.Source.kept.Holds n := trivial

section Room

variable {source : Draft.Source} {m n : Nat}

theorem Draft.Source.Holds.mono (h : source.Holds n) (hmn : m ≤ n) : source.Holds m := by
  cases source with
  | text room => exact Nat.le_trans hmn h
  | kept => trivial

/-- Where there is room for one level more, there is a level down and room for the others. -/
theorem Draft.Source.Holds.down (h : source.Holds (n + 1)) : ∃ deeper, source.down = .ok deeper ∧ deeper.Holds n := by
  cases source with
  | text room =>
    obtain ⟨room, rfl⟩ : ∃ r, room = r + 1 := ⟨room - 1, (Nat.sub_add_cancel (Nat.le_of_add_left_le h)).symm⟩
    exact ⟨.text room, rfl, Nat.le_of_succ_le_succ h⟩
  | kept => exact ⟨.kept, rfl, trivial⟩

end Room

mutual

/-- The draft of a value holds the value, where there is room for its levels. -/
theorem Draft.toJson_draft : ∀ j : Json, (∀ x ∈ j.floats, x.ReadsBack) → ∀ {source : Draft.Source}, source.Holds j.height →
    j.draft.toJson source = .ok j
  | .null, _, _, _ => rfl
  | .bool _, _, _, _ => rfl
  | .number n, h, _, _ => by
    have hn : n.numeral.toNumber? = some n := (Json.Number.readsBack_of_floats h).2
    simp only [Json.draft, Draft.toJson, hn]
  | .string _, _, _, _ => rfl
  | .array items, h, source, hroom => by
    obtain ⟨deeper, hdown, hroom⟩ := Draft.Source.Holds.down hroom
    rw [Json.draft, Draft.toJson, hdown]
    exact congrArg (Except.map Json.array) (Draft.toJsonItems_draft items h hroom)
  | .object entries, h, source, hroom => by
    obtain ⟨deeper, hdown, hroom⟩ := Draft.Source.Holds.down hroom
    rw [Json.draft, Draft.toJson, hdown]
    exact congrArg (Except.map Json.object) (Draft.toJsonMembers_draft entries h hroom)

theorem Draft.toJsonItems_draft : ∀ items : List Json, (∀ x ∈ Json.floatsOf items, x.ReadsBack) → ∀ {source : Draft.Source},
    source.Holds (Json.heightOf items) → Draft.toJsonItems (Json.draftItems items) source = .ok items
  | [], _, _, _ => rfl
  | x :: xs, h, source, hroom => by
    obtain ⟨hx, hxs⟩ := List.forall_mem_append.1 h
    rw [Json.draftItems, Draft.toJsonItems, Draft.toJson_draft x hx (hroom.mono (Nat.le_max_left _ _)),
      Draft.toJsonItems_draft xs hxs (hroom.mono (Nat.le_max_right _ _))]
    rfl

theorem Draft.toJsonMembers_draft : ∀ entries : List (String × Json), (∀ x ∈ Json.floatsOfEntries entries, x.ReadsBack) →
    ∀ {source : Draft.Source}, source.Holds (Json.heightOfEntries entries) →
      Draft.toJsonMembers (Json.draftEntries entries) source = .ok entries
  | [], _, _, _ => rfl
  | (k, x) :: es, h, source, hroom => by
    obtain ⟨hx, hes⟩ := List.forall_mem_append.1 h
    rw [Json.draftEntries, Draft.toJsonMembers, Draft.toJson_draft x hx (hroom.mono (Nat.le_max_left _ _)),
      Draft.toJsonMembers_draft es hes (hroom.mono (Nat.le_max_right _ _))]
    rfl

end

mutual

/-- Sorting leaves a sorted value as it is. -/
theorem Json.sort_of_isSorted : ∀ j : Json, j.isSorted = true → j.sort = j
  | .null, _ | .bool _, _ | .number _, _ | .string _, _ => rfl
  | .array items, h => congrArg Json.array (Json.sortItems_of_isSorted items h)
  | .object entries, h => by
    rw [Json.isSorted, Bool.and_eq_true, decide_eq_true_eq] at h
    rw [Json.sort, Json.sortValues_of_isSorted entries h.2, Entries.ofList_of_rising h.1]

theorem Json.sortItems_of_isSorted : ∀ items : List Json, Json.isSortedItems items = true → Json.sortItems items = items
  | [], _ => rfl
  | x :: xs, h => by
    rw [Json.isSortedItems, Bool.and_eq_true] at h
    rw [Json.sortItems, Json.sort_of_isSorted x h.1, Json.sortItems_of_isSorted xs h.2]

theorem Json.sortValues_of_isSorted :
    ∀ entries : List (String × Json), Json.isSortedEntries entries = true → Json.sortValues entries = entries
  | [], _ => rfl
  | (k, x) :: es, h => by
    rw [Json.isSortedEntries, Bool.and_eq_true] at h
    rw [Json.sortValues, Json.sort_of_isSorted x h.1, Json.sortValues_of_isSorted es h.2]

end

/-- The draft of a document holds the document, where there is room for its levels. -/
theorem Document.ofDraft_draft {d : Document} (h : ∀ x ∈ d.tree.floats, x.ReadsBack) {source : Draft.Source}
    (hroom : source.Holds d.tree.height) : Document.ofDraft source d.tree.draft = .ok d := by
  have hsort : Document.ofJson d.tree = d := by
    obtain ⟨tree, sorted⟩ := d
    simp only [Document.ofJson, Json.sort_of_isSorted tree sorted]
  rw [Document.ofDraft, Draft.toJson_draft d.tree h hroom, Except.map, hsort]

/-! ## Lists and records -/

section Parts

variable {α : Type} {f : α → Json}

/-- What is written for the items of a list is read item by item, if each reads back. -/
theorem Draft.mapM_draftItems {item : Draft → Except Fault α} {xs : List α} (h : ∀ x ∈ xs, item (f x).draft = .ok x) :
    (Json.draftItems (xs.map f)).mapM item = .ok xs := by
  induction xs with
  | nil => rfl
  | cons x xs ih =>
    obtain ⟨hx, hxs⟩ := List.forall_mem_cons.1 h
    rw [List.map_cons, Json.draftItems, List.mapM_cons, hx, ih hxs]
    rfl

/-- What is written for an array is read as a list, if each item reads back. -/
theorem Draft.toList_draft {item : Draft.Source → Draft → Except Fault α} {source deeper : Draft.Source}
    (hdown : source.down = .ok deeper) {xs : List α} (h : ∀ x ∈ xs, item deeper (f x).draft = .ok x) :
    Draft.toList item source (Json.array (xs.map f)).draft = .ok xs := by
  rw [Json.draft, Draft.toList, hdown]
  exact Draft.mapM_draftItems h

/-- What is written for an object is read as entries, if the value of each reads back. -/
theorem Draft.toEntries_draft {value : Draft.Source → Draft → Except Fault α} {source deeper : Draft.Source}
    (hdown : source.down = .ok deeper) {es : List (String × α)} (h : ∀ e ∈ es, value deeper (f e.2).draft = .ok e.2) :
    Draft.toEntries value source (Json.object (es.map fun e => (e.1, f e.2))).draft = .ok es := by
  rw [Json.draft, Draft.toEntries, hdown]
  change (Json.draftEntries (es.map fun e => (e.1, f e.2))).mapM _ = _
  induction es with
  | nil => rfl
  | cons e es ih =>
    obtain ⟨he, hes⟩ := List.forall_mem_cons.1 h
    rw [List.map_cons, Json.draftEntries, List.mapM_cons, ih hes]
    simp only [Draft.toText, he]
    rfl

end Parts

section Records

variable {σ α : Type}

/-- Where names are distinct, each finds its slot. -/
theorem Draft.find?_slot {slots : List (Draft.Slot σ)} (hnames : (slots.map (·.name)).Nodup) {slot : Draft.Slot σ}
    (hslot : slot ∈ slots) : (slots.find? fun s => s.name == slot.name) = some slot := by
  induction slots with
  | nil => exact absurd hslot List.not_mem_nil
  | cons s slots ih =>
    rw [List.map_cons, List.nodup_cons] at hnames
    rcases List.mem_cons.1 hslot with rfl | hslot
    · rw [List.find?_cons, beq_self_eq_true]
    · have hne : (s.name == slot.name) = false := beq_eq_false_iff_ne.2 fun h => hnames.1 (h ▸ List.mem_map_of_mem hslot)
      rw [List.find?_cons, hne]
      exact ih hnames.2 hslot

/-- A member that a record has, and that has not been given, is taken in. -/
theorem Draft.fillMembers_cons {slots : List (Draft.Slot σ)} {other : String → Draft → Except Fault Unit}
    (hnames : (slots.map (·.name)).Nodup) {i : Nat} {slot : Draft.Slot σ} (hslot : slots[i]? = some slot) {p p' : σ}
    (hempty : slot.filled p = false) {d : Draft} (hfill : slot.fill p d = .ok p') (members : List (Draft × Draft)) :
    Draft.fillMembers slots other p ((.string slot.name, d) :: members) = Draft.fillMembers slots other p' members := by
  rw [Draft.fillMembers, Draft.find?_slot hnames (List.mem_of_getElem? hslot)]
  simp only [hempty, Bool.false_eq_true, if_false, hfill]
  rfl

/-- A record is made of the members that an object gives it. -/
theorem Draft.toRecord_object {slots : Draft.Source → List (Draft.Slot σ)}
    {other : Draft.Source → String → Draft → Except Fault Unit} {start : σ} {finish : (String → Fault) → σ → Except Fault α}
    {source deeper : Draft.Source} (hdown : source.down = .ok deeper) {members : List (Draft × Draft)} {p : σ}
    (hfill : Draft.fillMembers (slots deeper) (other deeper) start members = .ok p) {x : α}
    (hx : finish .missingField p = .ok x) :
    Draft.toRecord slots other start finish source (.object members) = .ok x := by
  rw [Draft.toRecord, hdown]
  change (Draft.fillMembers (slots deeper) (other deeper) start members >>= fun p => finish .missingField p) = .ok x
  rw [hfill]
  exact hx

end Records

/-! ## Choices -/

section Choices

variable {α : Type} {choices : List (String × Draft.Choice α)} {name : String}

/-- Where names are distinct, each is the name of its choice. -/
theorem Draft.choice_of_mem (hnames : (choices.map (·.1)).Nodup) {c : Draft.Choice α} (hc : (name, c) ∈ choices) :
    Draft.choice choices name = .ok c := by
  have hlookup : choices.lookup name = some c := Entries.lookup_of_mem hnames hc
  rw [Draft.choice, hlookup]

/-- What goes with the name of a choice is made as that choice makes it. -/
theorem Draft.toChoice_object (hnames : (choices.map (·.1)).Nodup) {make : Draft.Source → Draft → Except Fault α}
    (hmake : (name, .holding make) ∈ choices) {source deeper : Draft.Source} (hdown : source.down = .ok deeper) {d : Draft}
    {x : α} (hx : make deeper d = .ok x) : Draft.toChoice choices source (.object [(.string name, d)]) = .ok x := by
  have hone : Draft.toChoice choices source (.object [(.string name, d)]) =
      (Draft.choice choices name >>= fun chosen => chosen.take deeper d >>= Except.ok) := by
    rw [Draft.toChoice, hdown]
    cases deeper <;> rfl
  rw [hone, Draft.choice_of_mem hnames hmake]
  exact congrArg (· >>= Except.ok) hx

/-- The name alone makes a choice that goes without more. -/
theorem Draft.toChoice_string (hnames : (choices.map (·.1)).Nodup) {x : α} (hx : (name, .bare x) ∈ choices)
    (source : Draft.Source) : Draft.toChoice choices source (.string name) = .ok x := by
  rw [Draft.toChoice, Draft.choice_of_mem hnames hx]
  rfl

end Choices

/-! ## Numbers and parsed texts -/

/-- A whole number between two bounds is read as it was written. -/
theorem Draft.toWhole_draft {least most n : Int} {fits : -0x8000000000000000 ≤ n ∧ n < 0x10000000000000000} (hleast : least ≤ n)
    (hmost : n ≤ most) : Draft.toWhole least most (Json.number (.whole n fits)).draft = .ok n := by
  have hn := (Json.Number.readsBack_whole n fits).2
  simp only [Json.draft, Draft.toWhole, hn, if_pos (And.intro hleast hmost)]

/-- A float is read as it was written, if its text stands for it. -/
theorem Draft.toDouble_draft {x : Double} {finite : x.isFinite = true} (h : x.ReadsBack) :
    Draft.toDouble (Json.number (.float x finite)).draft = .ok x := by
  have hn := (Json.Number.readsBack_float finite h).2
  simp only [Json.draft, Draft.toDouble, hn]

/-- A text is read as what it is parsed as. -/
theorem Draft.toParsed_string {α : Type} {parse : String → Option α} {s : String} {x : α} (h : parse s = some x) :
    Draft.toParsed parse (.string s) = .ok x := by
  unfold Draft.toParsed
  simp only [Draft.toText, bind, Except.bind, h]
  rfl

/-! ## Parts and whole texts -/

/-- A part whose floats read back may be kept, where there is room for its levels. -/
theorem Draft.keep_draft {j : Json} (h : ∀ x ∈ j.floats, x.ReadsBack) {source : Draft.Source} (hroom : source.Holds j.height) :
    j.draft.keep source = .ok () := by
  cases source with
  | text room => rw [Draft.keep, Draft.toJson_draft j h hroom, Except.map]
  | kept => rfl

/-- What is made of the draft of a value is made of its text. -/
theorem Draft.decode_text {α : Type} {make : Draft.Source → Draft → Except Fault α} {j : Json} (h : ∀ x ∈ j.floats, x.ReadsBack)
    {x : α} (hx : make .fresh j.draft = .ok x) : Draft.decode make j.text = .ok x := by
  unfold Draft.decode
  rw [Draft.read_text h]
  exact congrArg (· >>= fun y => Except.ok y) hx

end WhereClause
