import WhereClause.Schema

/-!
# TypeNames: a type name is its words

Which type a name names is decided by its words, and by these up to the case of ASCII letters: a name is looked up under its
words joined and in capitals, and taking capitals undoes a change of case (`ColumnType.normalForm_eq_of_words`). White space that
parts no word, a change of case, and a parenthesis with anything after it leave the words what they were up to that, and with them
the type (`ColumnType.resolve_eq_of_words`).
-/

namespace WhereClause

/-! ## Letter case -/

/-- A text of small letters has the words of the text it was made from, in small letters. -/
theorem Text.words_lower (s : List Char) : Text.words (Text.lower s) = (Text.words s).map Text.lower :=
  Text.words_map (Text.toLower_keeps (by decide)) s

/-- Words joined have the same upper-case form as they have in small letters. -/
theorem Text.capitals_intercalate_lower (sep : List Char) (ws : List (List Char)) :
    Text.capitals (sep.intercalate (ws.map Text.lower)) = Text.capitals (sep.intercalate ws) := by
  induction ws with
  | nil => rfl
  | cons w ws ih =>
    cases ws with
    | nil => rw [List.map_singleton, List.intercalate_singleton, List.intercalate_singleton, Text.capitals_lower]
    | cons v ws =>
      rw [List.map_cons] at ih
      rw [List.map_cons, List.map_cons, List.intercalate_cons_cons, List.intercalate_cons_cons, Text.capitals_append,
        Text.capitals_append, Text.capitals_append, Text.capitals_append, Text.capitals_lower, ih]

/-! ## What a name is looked up under -/

/-- Names whose words are the same up to letter case are looked up under the same form. -/
theorem ColumnType.normalForm_eq_of_words {a b : String}
    (h : (ColumnType.words a).map Text.lower = (ColumnType.words b).map Text.lower) :
    ColumnType.normalForm a = ColumnType.normalForm b := by
  rw [ColumnType.normalForm, ← Text.capitals_intercalate_lower, h, Text.capitals_intercalate_lower]
  rfl

/-- Names whose words are the same up to letter case name the same type, or none. -/
theorem ColumnType.ofName?_eq_of_words {a b : String}
    (h : (ColumnType.words a).map Text.lower = (ColumnType.words b).map Text.lower) :
    ColumnType.ofName? a = ColumnType.ofName? b := by
  rw [ColumnType.ofName?, ColumnType.normalForm_eq_of_words h]
  rfl

/-- A name whose words are those of a name that resolves, up to letter case, resolves to the same type. -/
theorem ColumnType.resolve_eq_of_words {a b : String} {t : ColumnType} (ha : ColumnType.resolve a = .ok t)
    (h : (ColumnType.words b).map Text.lower = (ColumnType.words a).map Text.lower) : ColumnType.resolve b = .ok t := by
  rw [ColumnType.resolve_eq_ok_iff] at ha ⊢
  rw [ColumnType.ofName?_eq_of_words h, ha]

/-! ## The words of a name -/

/-- The words of a name in small letters are the words of the name, up to letter case. -/
theorem ColumnType.map_lower_words (name : String) :
    (ColumnType.words name).map Text.lower = Text.words ((Text.lower name.toList).takeWhile (· != '(')) := by
  have hparen : (fun c : Char => c != '(') ∘ Char.toLower = fun c => c != '(' :=
    funext (Text.toLower_keeps (f := fun c => c != '(') (by decide))
  rw [ColumnType.words, ← Text.words_lower, Text.lower, Text.lower, List.takeWhile_map, hparen]

/-- A text without an opening parenthesis is not cut. -/
theorem Text.bne_paren_of_not_mem {s : List Char} (hs : '(' ∉ s) : ∀ c ∈ s, (c != '(') = true :=
  fun _ hc => bne_iff_ne.2 fun h => hs (h ▸ hc)

/-- Where there is no opening parenthesis in a text, the words go on with what comes after it. -/
theorem ColumnType.words_append_of_not_mem {u : String} (hu : '(' ∉ u.toList) (v : String) :
    ColumnType.words (u ++ v) = Text.words (u.toList ++ v.toList.takeWhile (· != '(')) := by
  rw [ColumnType.words, String.toList_append, List.takeWhile_append_of_pos (Text.bne_paren_of_not_mem hu)]

/-- Where there is an opening parenthesis in a text, what comes after the text belongs to no word. -/
theorem ColumnType.words_append_of_mem {u : String} (hu : '(' ∈ u.toList) (v : String) :
    ColumnType.words (u ++ v) = ColumnType.words u := by
  obtain ⟨before, after, hsplit, hnot⟩ := List.eq_append_cons_of_mem hu
  have hcut : ∀ rest, (before ++ '(' :: rest).takeWhile (· != '(') = before := by
    intro rest
    rw [List.takeWhile_append_of_pos (Text.bne_paren_of_not_mem hnot), List.takeWhile_cons_of_neg (by decide), List.append_nil]
  rw [ColumnType.words, ColumnType.words, String.toList_append, hsplit, List.append_assoc, List.cons_append, hcut, hcut]

/-- A place in a name at which white space parts no word: at either end, beside white space, at an opening parenthesis or after
one. -/
def ColumnType.BetweenWords (u v : String) : Prop :=
  '(' ∈ u.toList ∨ Text.Apart u.toList (v.toList.takeWhile (· != '('))

/-- White space that parts no word leaves the words as they were. -/
theorem ColumnType.words_append_blanks {u w v : String} (h : ColumnType.BetweenWords u v)
    (hw : ∀ c ∈ w.toList, Text.isBlank c = true) : ColumnType.words (u ++ w ++ v) = ColumnType.words (u ++ v) := by
  rw [String.append_assoc]
  by_cases hu : '(' ∈ u.toList
  · rw [ColumnType.words_append_of_mem hu, ColumnType.words_append_of_mem hu]
  · have hw' : '(' ∉ w.toList := fun hmem => nomatch hw '(' hmem
    rw [ColumnType.words_append_of_not_mem hu, ColumnType.words_append_of_not_mem hu, String.toList_append,
      List.takeWhile_append_of_pos (Text.bne_paren_of_not_mem hw')]
    exact Text.words_append_blanks (h.resolve_left hu) hw

/-- An opening parenthesis with anything after it leaves the words as they were. -/
theorem ColumnType.words_append_paren (name text : String) : ColumnType.words (name ++ "(" ++ text) = ColumnType.words name := by
  rw [String.append_assoc]
  by_cases h : '(' ∈ name.toList
  · exact ColumnType.words_append_of_mem h _
  · have hcut : ("(" ++ text).toList.takeWhile (· != '(') = [] := by
      rw [String.toList_append]
      rfl
    have hname := ColumnType.words_append_of_not_mem h ""
    rw [ColumnType.words_append_of_not_mem h, hcut]
    rw [String.append_empty] at hname
    exact hname.symm

/-! ## Types -/

/-- Type names resolve by their words alone. Names whose words are the same up to the case of ASCII letters resolve to the same
type, or neither resolves and the flaw is each name as it was given. A name that resolves resolves to the same type with white
space added that parts none of its words, with the case of ASCII letters changed, and with a parenthesis and anything at all after
it, and the canonical name of the type resolves to it too. -/
theorem ColumnType.resolve_words (a : String) :
    (∀ b, (ColumnType.words a).map Text.lower = (ColumnType.words b).map Text.lower →
      (∃ t, ColumnType.resolve a = .ok t ∧ ColumnType.resolve b = .ok t) ∨
      (ColumnType.resolve a = .error (.unknownType a) ∧ ColumnType.resolve b = .error (.unknownType b))) ∧
    ∀ t, ColumnType.resolve a = .ok t →
      (∀ u w v, a = u ++ v → ColumnType.BetweenWords u v → (∀ c ∈ w.toList, Text.isBlank c = true) →
        ColumnType.resolve (u ++ w ++ v) = .ok t) ∧
      (∀ b : String, Text.lower b.toList = Text.lower a.toList → ColumnType.resolve b = .ok t) ∧
      (∀ text, ColumnType.resolve (a ++ "(" ++ text) = .ok t) ∧
      ColumnType.resolve t.sqlName = .ok t := by
  refine ⟨fun b h => ?_, fun t ha => ⟨?_, ?_, ?_, ?_⟩⟩
  · have hname := ColumnType.ofName?_eq_of_words h
    unfold ColumnType.resolve
    rw [hname]
    cases ColumnType.ofName? b with
    | none => exact .inr ⟨rfl, rfl⟩
    | some t => exact .inl ⟨t, rfl, rfl⟩
  · rintro u w v rfl hplace hw
    exact ColumnType.resolve_eq_of_words ha (by rw [ColumnType.words_append_blanks hplace hw])
  · intro b hb
    exact ColumnType.resolve_eq_of_words ha (by rw [ColumnType.map_lower_words, ColumnType.map_lower_words, hb])
  · intro text
    exact ColumnType.resolve_eq_of_words ha (by rw [ColumnType.words_append_paren])
  · exact t.resolve_sqlName

/-- A name of two words resolves in other capitals, with a no-break space between the words, with more white space there and with
more parentheses after it, and a name that resolves in no spelling is the flaw in the spelling that was given. -/
theorem ColumnType.resolve_words_varying :
    ColumnType.resolve "Character varying(20)" = .ok .varChar ∧
    ColumnType.resolve "\t CHARACTER\u00a0vaRYing ( x" = .ok .varChar ∧
    ColumnType.resolve ("Character " ++ "\u2003\n" ++ "varying(20)") = .ok .varChar ∧
    ColumnType.resolve "cHARACTER vARYING(20)" = .ok .varChar ∧
    ColumnType.resolve ("Character varying(20)" ++ "(" ++ "((") = .ok .varChar ∧
    ColumnType.resolve ColumnType.varChar.sqlName = .ok .varChar ∧
    ColumnType.resolve "dou ble" = .error (.unknownType "dou ble") ∧
    ColumnType.resolve " DOU  ble(8)" = .error (.unknownType " DOU  ble(8)") := by
  have ha : ColumnType.resolve "Character varying(20)" = .ok .varChar := ColumnType.resolve_eq_ok_iff.2 (by decide +kernel)
  obtain ⟨hsame, hspelled⟩ := ColumnType.resolve_words "Character varying(20)"
  obtain ⟨hblanks, hcase, hparen, hcanonical⟩ := hspelled .varChar ha
  obtain ⟨t, ht, hb⟩ | ⟨hnone, -⟩ := hsame "\t CHARACTER\u00a0vaRYing ( x" (by decide +kernel)
  · obtain rfl := Except.ok.inj (ht.symm.trans ha)
    have hplace : ColumnType.BetweenWords "Character " "varying(20)" := by
      refine .inr fun c d hc _ => .inl ?_
      obtain rfl : ' ' = c := Option.some.inj hc
      decide
    have hblank : ∀ c ∈ "\u2003\n".toList, Text.isBlank c = true := List.all_eq_true.1 (by decide)
    have hfails : ColumnType.resolve "dou ble" = .error (.unknownType "dou ble") := by
      rw [ColumnType.resolve, (by decide +kernel : ColumnType.ofName? "dou ble" = none)]
    obtain ⟨t, ht, -⟩ | hfail := (ColumnType.resolve_words "dou ble").1 " DOU  ble(8)" (by decide +kernel)
    · rw [hfails] at ht
      nomatch ht
    · exact ⟨ha, hb, hblanks "Character " "\u2003\n" "varying(20)" (by decide) hplace hblank,
        hcase "cHARACTER vARYING(20)" (by decide +kernel), hparen "((", hcanonical, hfail.1, hfail.2⟩
  · rw [ha] at hnone
    nomatch hnone

end WhereClause
