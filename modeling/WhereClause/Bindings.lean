/-!
# Bindings: values bound to names, in the order of the names

A map from names to values is kept as the list of its entries in rising order of the names, by code point, each name once. So
equal maps are equal lists, and whoever walks a map walks it in name order. A name bound again has the later value
(`Entries.lookup_insert`).
-/

namespace WhereClause

/-- Whether the names of a list of entries rise from each to the next. -/
def Entries.Rising {α : Type} (entries : List (String × α)) : Prop := (entries.map (·.1)).Pairwise (· < ·)

instance {α : Type} (entries : List (String × α)) : Decidable (Entries.Rising entries) :=
  inferInstanceAs (Decidable (List.Pairwise _ _))

/-- A list of entries in rising order with one name bound: its place is found by the order, and a value it had is replaced. -/
def Entries.insert {α : Type} (name : String) (value : α) : List (String × α) → List (String × α)
  | [] => [(name, value)]
  | (n, v) :: rest =>
    if name < n then (name, value) :: (n, v) :: rest
    else if name = n then (name, value) :: rest
    else (n, v) :: Entries.insert name value rest

/-- The entries of a list in rising order of the names, each name with the last value it has in the list. -/
def Entries.ofList {α : Type} (entries : List (String × α)) : List (String × α) :=
  entries.foldl (fun sorted e => Entries.insert e.1 e.2 sorted) []

/-! ## Small lemmas -/

/-- The names after an insertion are the new one and those before. -/
theorem Entries.mem_insert_names {α : Type} (name : String) (value : α) (entries : List (String × α)) (n : String) :
    n ∈ (Entries.insert name value entries).map (·.1) ↔ n = name ∨ n ∈ entries.map (·.1) := by
  induction entries with
  | nil => simp [Entries.insert]
  | cons e rest ih =>
    obtain ⟨m, v⟩ := e
    simp only [Entries.insert]
    split
    · simp
    · split
      · rename_i h
        subst h
        simp
      · simp only [List.map_cons, List.mem_cons, ih]
        constructor
        · rintro (h | h | h)
          · exact .inr (.inl h)
          · exact .inl h
          · exact .inr (.inr h)
        · rintro (h | h | h)
          · exact .inr (.inl h)
          · exact .inl h
          · exact .inr (.inr h)

theorem Entries.rising_insert {α : Type} (name : String) (value : α) {entries : List (String × α)}
    (h : Entries.Rising entries) : Entries.Rising (Entries.insert name value entries) := by
  induction entries with
  | nil => exact List.pairwise_singleton _ _
  | cons e rest ih =>
    obtain ⟨n, v⟩ := e
    obtain ⟨hn, hr⟩ := List.pairwise_cons.1 h
    simp only [Entries.insert]
    split
    · rename_i hlt
      refine List.pairwise_cons.2 ⟨fun m hm => ?_, h⟩
      rcases List.mem_cons.1 hm with rfl | hm
      · exact hlt
      · exact String.lt_trans hlt (hn m hm)
    · rename_i hnl
      split
      · rename_i he
        subst he
        exact h
      · rename_i hne
        refine List.pairwise_cons.2 ⟨fun m hm => ?_, ih hr⟩
        rcases (Entries.mem_insert_names name value rest m).1 hm with rfl | hm
        · exact Std.lt_of_le_of_ne (String.not_lt.1 hnl) (fun e => hne e.symm)
        · exact hn m hm

/-- The entries of a list, put in order, rise. -/
theorem Entries.rising_ofList {α : Type} (entries : List (String × α)) : Entries.Rising (Entries.ofList entries) := by
  have go : ∀ (es sorted : List (String × α)), Entries.Rising sorted →
      Entries.Rising (es.foldl (fun sorted e => Entries.insert e.1 e.2 sorted) sorted) := by
    intro es
    induction es with
    | nil => exact fun _ h => h
    | cons e es ih => exact fun sorted h => ih _ (Entries.rising_insert e.1 e.2 h)
  exact go entries [] List.Pairwise.nil

/-- What a name is bound to after an insertion: the new value for the new name, and what it was for any other. -/
theorem Entries.lookup_insert {α : Type} (name : String) (value : α) (entries : List (String × α)) (n : String) :
    (Entries.insert name value entries).lookup n = if n = name then some value else entries.lookup n := by
  induction entries with
  | nil =>
    by_cases h : n = name
    · simp [Entries.insert, h]
    · have h' : (n == name) = false := beq_eq_false_iff_ne.2 h
      simp [Entries.insert, List.lookup_cons, h, h']
  | cons e rest ih =>
    obtain ⟨m, v⟩ := e
    simp only [Entries.insert]
    split
    · by_cases h : n = name
      · simp [h]
      · have h' : (n == name) = false := beq_eq_false_iff_ne.2 h
        rw [List.lookup_cons, h', if_neg h]
    · split
      · rename_i he
        subst he
        by_cases h : n = name
        · simp [h]
        · have h' : (n == name) = false := beq_eq_false_iff_ne.2 h
          rw [List.lookup_cons, List.lookup_cons, h', if_neg h]
      · rename_i hne
        rw [List.lookup_cons, List.lookup_cons]
        by_cases hm : n = m
        · subst hm
          have hnn : n ≠ name := fun e => hne e.symm
          simp [hnn]
        · have h' : (n == m) = false := beq_eq_false_iff_ne.2 hm
          rw [h', ih]

/-- What an insertion leaves in the list was there before or is the new entry. -/
theorem Entries.mem_of_mem_insert {α : Type} {name : String} {value : α} {entries : List (String × α)} {e : String × α}
    (h : e ∈ Entries.insert name value entries) : e = (name, value) ∨ e ∈ entries := by
  induction entries with
  | nil => exact .inl (List.mem_singleton.1 h)
  | cons f rest ih =>
    obtain ⟨n, v⟩ := f
    simp only [Entries.insert] at h
    split at h
    · exact List.mem_cons.1 h
    · split at h
      · rcases List.mem_cons.1 h with h | h
        · exact .inl h
        · exact .inr (List.mem_cons_of_mem _ h)
      · rcases List.mem_cons.1 h with h | h
        · exact .inr (h ▸ List.mem_cons_self)
        · rcases ih h with h | h
          · exact .inl h
          · exact .inr (List.mem_cons_of_mem _ h)

/-- What a list put in order holds, the list held. -/
theorem Entries.mem_of_mem_ofList {α : Type} {entries : List (String × α)} {e : String × α}
    (h : e ∈ Entries.ofList entries) : e ∈ entries := by
  have go : ∀ (es sorted : List (String × α)), e ∈ es.foldl (fun sorted e => Entries.insert e.1 e.2 sorted) sorted →
      e ∈ es ∨ e ∈ sorted := by
    intro es
    induction es with
    | nil => exact fun _ h => .inr h
    | cons f es ih =>
      intro sorted h
      rcases ih _ h with h | h
      · exact .inl (List.mem_cons_of_mem _ h)
      · rcases Entries.mem_of_mem_insert h with h | h
        · exact .inl (h ▸ List.mem_cons_self)
        · exact .inr h
  rcases go entries [] h with h | h
  · exact h
  · exact absurd h List.not_mem_nil

theorem Entries.rising_map {α β : Type} (f : α → β) {entries : List (String × α)} (h : Entries.Rising entries) :
    Entries.Rising (entries.map fun e => (e.1, f e.2)) := by
  simpa [Entries.Rising, List.map_map, Function.comp_def] using h

/-- A name that comes after all others is bound at the end. -/
theorem Entries.insert_of_forall_lt {α : Type} {name : String} (value : α) {entries : List (String × α)}
    (h : ∀ e ∈ entries, e.1 < name) : Entries.insert name value entries = entries ++ [(name, value)] := by
  induction entries with
  | nil => rfl
  | cons e entries ih =>
    have he : e.1 < name := h e List.mem_cons_self
    have hlt : ¬ name < e.1 := fun hlt => String.lt_irrefl name (String.lt_trans hlt he)
    have hne : name ≠ e.1 := fun hne => String.lt_irrefl name (hne ▸ he)
    rw [Entries.insert, if_neg hlt, if_neg hne, ih fun e' he' => h e' (List.mem_cons_of_mem e he'), List.cons_append]

/-- Entries that rise are in order. -/
theorem Entries.ofList_of_rising {α : Type} {entries : List (String × α)} (h : Entries.Rising entries) :
    Entries.ofList entries = entries := by
  have go : ∀ es sorted : List (String × α), Entries.Rising (sorted ++ es) →
      es.foldl (fun sorted e => Entries.insert e.1 e.2 sorted) sorted = sorted ++ es := by
    intro es
    induction es with
    | nil => exact fun sorted _ => (List.append_nil sorted).symm
    | cons e es ih =>
      intro sorted h
      have hlt : ∀ e' ∈ sorted, e'.1 < e.1 := by
        unfold Entries.Rising at h
        rw [List.map_append, List.pairwise_append] at h
        exact fun e' he' => h.2.2 e'.1 (List.mem_map_of_mem he') e.1 List.mem_cons_self
      rw [List.foldl_cons, Entries.insert_of_forall_lt e.2 hlt, ih (sorted ++ [e]) (by rwa [List.append_assoc]),
        List.append_assoc]
      rfl
  exact go entries [] h

/-- Binding a name that is not among those bound adds an entry and loses none. -/
theorem Entries.perm_insert {α : Type} {name : String} (value : α) {entries : List (String × α)}
    (h : name ∉ entries.map (·.1)) : (Entries.insert name value entries).Perm ((name, value) :: entries) := by
  induction entries with
  | nil => exact List.Perm.refl _
  | cons e rest ih =>
    obtain ⟨n, v⟩ := e
    simp only [List.map_cons, List.mem_cons, not_or] at h
    simp only [Entries.insert]
    split
    · exact List.Perm.refl _
    · rw [if_neg h.1]
      exact ((ih h.2).cons (n, v)).trans (List.Perm.swap _ _ _)

/-- Entries for distinct names are put in order without a loss. -/
theorem Entries.perm_ofList {α : Type} {entries : List (String × α)} (h : (entries.map (·.1)).Nodup) :
    (Entries.ofList entries).Perm entries := by
  have go : ∀ es sorted : List (String × α), ((es ++ sorted).map (·.1)).Nodup →
      (es.foldl (fun sorted e => Entries.insert e.1 e.2 sorted) sorted).Perm (es ++ sorted) := by
    intro es
    induction es with
    | nil => exact fun sorted _ => List.Perm.refl sorted
    | cons e es ih =>
      intro sorted h
      have hfresh : e.1 ∉ sorted.map (·.1) := by
        rw [List.cons_append, List.map_cons, List.nodup_cons, List.map_append, List.mem_append, not_or] at h
        exact h.1.2
      have hperm : (es ++ Entries.insert e.1 e.2 sorted).Perm (e :: (es ++ sorted)) :=
        ((Entries.perm_insert e.2 hfresh).append_left es).trans List.perm_middle
      rw [List.foldl_cons]
      exact (ih _ ((hperm.map (·.1)).nodup_iff.2 h)).trans hperm
  have hnil := go entries [] (by rwa [List.append_nil])
  rwa [List.append_nil] at hnil

/-! ## The type -/

/-- Values bound to names: the entries, in rising order of the names. -/
structure Bindings (α : Type) where
  entries : List (String × α)
  rising : Entries.Rising entries

/-- The bindings of a list of entries; of two entries for one name the later counts. -/
def Bindings.ofList {α : Type} (entries : List (String × α)) : Bindings α :=
  ⟨Entries.ofList entries, Entries.rising_ofList entries⟩

/-- No name bound. -/
def Bindings.empty {α : Type} : Bindings α := ⟨[], List.Pairwise.nil⟩

/-- The names that are bound, in order. -/
def Bindings.names {α : Type} (b : Bindings α) : List String := b.entries.map (·.1)

/-- The value a name is bound to. -/
def Bindings.get? {α : Type} (b : Bindings α) (name : String) : Option α := b.entries.lookup name

/-- Whether a name is bound. -/
def Bindings.contains {α : Type} (b : Bindings α) (name : String) : Bool := (b.get? name).isSome

/-- The number of names bound. -/
def Bindings.size {α : Type} (b : Bindings α) : Nat := b.entries.length

/-- The bindings with one name bound anew. -/
def Bindings.insert {α : Type} (b : Bindings α) (name : String) (value : α) : Bindings α :=
  ⟨Entries.insert name value b.entries, Entries.rising_insert name value b.rising⟩

/-- The same names bound to other values. -/
def Bindings.map {α β : Type} (f : α → β) (b : Bindings α) : Bindings β :=
  ⟨b.entries.map fun e => (e.1, f e.2), Entries.rising_map f b.rising⟩

theorem Bindings.get?_insert {α : Type} (b : Bindings α) (name : String) (value : α) (n : String) :
    (b.insert name value).get? n = if n = name then some value else b.get? n :=
  Entries.lookup_insert name value b.entries n

theorem Bindings.ext {α : Type} {a b : Bindings α} (h : a.entries = b.entries) : a = b := by
  cases a
  cases b
  cases h
  rfl

/-! ## The names, and what they are bound to -/

/-- Names are distinct if each is less than the next. -/
theorem Entries.nodup_of_pairwise_lt {names : List String} (h : names.Pairwise (· < ·)) : names.Nodup := by
  refine h.imp ?_
  rintro m n hlt rfl
  exact String.lt_irrefl m hlt

theorem Bindings.nodup_names {α : Type} (b : Bindings α) : b.names.Nodup := Entries.nodup_of_pairwise_lt b.rising

/-- Where names are distinct, an entry is what its name is bound to. -/
theorem Entries.lookup_of_mem {α : Type} {entries : List (String × α)} (hnodup : (entries.map (·.1)).Nodup) {e : String × α}
    (he : e ∈ entries) : entries.lookup e.1 = some e.2 := by
  induction entries with
  | nil => exact absurd he List.not_mem_nil
  | cons f entries ih =>
    rw [List.map_cons, List.nodup_cons] at hnodup
    rw [List.lookup_cons]
    rcases List.mem_cons.1 he with rfl | he
    · rw [beq_self_eq_true]
    · have hne : (e.1 == f.1) = false := beq_eq_false_iff_ne.2 fun h => hnodup.1 (h ▸ List.mem_map_of_mem he)
      rw [hne]
      exact ih hnodup.2 he

/-- An entry of bindings is what its name is bound to. -/
theorem Bindings.get?_of_mem {α : Type} (b : Bindings α) {e : String × α} (he : e ∈ b.entries) : b.get? e.1 = some e.2 :=
  Entries.lookup_of_mem b.nodup_names he

/-- The entry at a place is the name at that place among the names, with the value it is bound to. -/
theorem Bindings.getElem?_entries_eq_some_iff {α : Type} (b : Bindings α) {i : Nat} {e : String × α} :
    b.entries[i]? = some e ↔ b.names[i]? = some e.1 ∧ b.get? e.1 = some e.2 := by
  rw [Bindings.names, List.getElem?_map, Option.map_eq_some_iff]
  constructor
  · intro h
    exact ⟨⟨e, h, rfl⟩, b.get?_of_mem (List.mem_of_getElem? h)⟩
  · rintro ⟨⟨entry, hentry, hname⟩, hvalue⟩
    have hbound : b.get? entry.1 = some entry.2 := b.get?_of_mem (List.mem_of_getElem? hentry)
    rw [hname, hvalue] at hbound
    have heq : entry = e := Prod.ext hname (Option.some.inj hbound).symm
    rwa [← heq]

/-- A name is bound exactly when it is among the names. -/
theorem Bindings.contains_iff {α : Type} (b : Bindings α) (name : String) : b.contains name = true ↔ name ∈ b.names := by
  unfold Bindings.contains Bindings.get? Bindings.names
  induction b.entries with
  | nil => simp
  | cons e entries ih =>
    rw [List.lookup_cons, List.map_cons, List.mem_cons, ← ih]
    split
    · rename_i h
      simp [beq_iff_eq.1 h]
    · rename_i h
      have hne : name ≠ e.1 := beq_eq_false_iff_ne.1 h
      simp [hne]

/-- Binding a name binds it and keeps the other names bound or not. -/
theorem Bindings.contains_insert {α : Type} (b : Bindings α) (name : String) (value : α) (n : String) :
    (b.insert name value).contains n = false ↔ n ≠ name ∧ b.contains n = false := by
  unfold Bindings.contains
  rw [Bindings.get?_insert]
  split
  · rename_i h
    simp [h]
  · rename_i h
    simp [h]

theorem Bindings.foldl_insert_empty {α : Type} (entries : List (String × α)) :
    entries.foldl (fun b e => b.insert e.1 e.2) Bindings.empty = Bindings.ofList entries := by
  have go : ∀ (es : List (String × α)) (b : Bindings α),
      (es.foldl (fun b e => b.insert e.1 e.2) b).entries =
        es.foldl (fun sorted e => Entries.insert e.1 e.2 sorted) b.entries := by
    intro es
    induction es with
    | nil => exact fun _ => rfl
    | cons e es ih => exact fun b => ih (b.insert e.1 e.2)
  exact Bindings.ext (go entries Bindings.empty)

/-- What a name is bound to among other values is the other value of what it was bound to. -/
theorem Bindings.get?_map {α β : Type} (f : α → β) (b : Bindings α) (name : String) :
    (b.map f).get? name = (b.get? name).map f := by
  change (b.entries.map fun e => (e.1, f e.2)).lookup name = (b.entries.lookup name).map f
  induction b.entries with
  | nil => rfl
  | cons e entries ih =>
    rw [List.map_cons, List.lookup_cons, List.lookup_cons]
    split
    · rfl
    · exact ih

theorem Bindings.names_map {α β : Type} (f : α → β) (b : Bindings α) : (b.map f).names = b.names := by
  unfold Bindings.names Bindings.map
  rw [List.map_map]
  rfl

end WhereClause
