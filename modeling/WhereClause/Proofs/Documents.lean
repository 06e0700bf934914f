import WhereClause.Proofs.Numerals

/-!
# Documents: written values read back

The text of a JSON value is read to its end and as the draft of that value (`Draft.read_text`), as long as its floats read
back. Each part is read for every text that may follow it, since inside a value something always does: of that text no more is
asked than that a numeral ends at it.
-/

namespace WhereClause

/-! ## Strings -/

theorem Draft.readMarks_plain {c : Char} (hquote : c ≠ '"') (hslash : c ≠ '\\') (hcontrol : ¬ c.toNat < 0x20) (s : List Char) :
    Draft.readMarks (c :: s) = (Draft.readMarks s).map fun r => (.plain c :: r.1, r.2) := by
  rw [Draft.readMarks.eq_def]
  simp only [if_neg hquote, if_neg hslash, if_neg hcontrol]
  cases Draft.readMarks s <;> rfl

theorem Draft.readMarks_short {e c : Char} (hunit : e ≠ 'u') (hc : Draft.shortEscape? e = some c) (s : List Char) :
    Draft.readMarks ('\\' :: e :: s) = (Draft.readMarks s).map fun r => (.plain c :: r.1, r.2) := by
  have hquote : ¬ '\\' = '"' := by decide
  rw [Draft.readMarks.eq_def]
  simp only [if_neg hquote, if_true, if_neg hunit, hc]
  cases Draft.readMarks s <;> rfl

theorem Draft.readMarks_unit {h₁ h₂ h₃ h₄ : Char} {n : Nat} (hn : Draft.hexUnit? h₁ h₂ h₃ h₄ = some n) (s : List Char) :
    Draft.readMarks ('\\' :: 'u' :: h₁ :: h₂ :: h₃ :: h₄ :: s) = (Draft.readMarks s).map fun r => (.unit n :: r.1, r.2) := by
  have hquote : ¬ '\\' = '"' := by decide
  rw [Draft.readMarks.eq_def]
  simp only [if_neg hquote, if_true, hn]
  cases Draft.readMarks s <;> rfl

/-- The two hexadecimal digits of a control character are read as its number. -/
theorem Draft.hexUnit?_control :
    ∀ n < 0x20, Draft.hexUnit? '0' '0' (Nat.digitChar (n / 16)) (Nat.digitChar (n % 16)) = some n := by
  decide

/-- A character is written as a short escape, as a numbered escape if it is a control character, or as itself. -/
theorem Json.writeChar_cases (c : Char) :
    (∃ e, Json.writeChar c = ['\\', e] ∧ e ≠ 'u' ∧ Draft.shortEscape? e = some c) ∨
    (Json.writeChar c = ['\\', 'u', '0', '0', Nat.digitChar (c.toNat / 16), Nat.digitChar (c.toNat % 16)] ∧ c.toNat < 0x20) ∨
    (Json.writeChar c = [c] ∧ c ≠ '"' ∧ c ≠ '\\' ∧ ¬ c.toNat < 0x20) := by
  by_cases hshort : c ∈ ['"', '\\', '\x08', '\t', '\n', '\x0c', '\r']
  · simp only [List.mem_cons, List.not_mem_nil, or_false] at hshort
    rcases hshort with rfl | rfl | rfl | rfl | rfl | rfl | rfl <;> exact .inl ⟨_, rfl, by decide, by decide⟩
  · simp only [List.mem_cons, List.not_mem_nil, or_false, not_or] at hshort
    obtain ⟨hquote, hslash, hb, ht, hn, hf, hr⟩ := hshort
    right
    unfold Json.writeChar
    rw [if_neg hquote, if_neg hslash, if_neg hb, if_neg ht, if_neg hn, if_neg hf, if_neg hr]
    split
    · rename_i hcontrol
      exact .inl ⟨rfl, hcontrol⟩
    · rename_i hcontrol
      exact .inr ⟨rfl, hquote, hslash, hcontrol⟩

/-- What is written for a character is read as one mark, which stands for the character. -/
theorem Draft.readMarks_writeChar (c : Char) : ∃ mark,
    (∀ s, Draft.readMarks (Json.writeChar c ++ s) = (Draft.readMarks s).map fun r => (mark :: r.1, r.2)) ∧
    ∀ marks, Draft.joinMarks (mark :: marks) = (Draft.joinMarks marks).map (c :: ·) := by
  rcases Json.writeChar_cases c with ⟨e, hwrite, hunit, hc⟩ | ⟨hwrite, hcontrol⟩ | ⟨hwrite, hquote, hslash, hcontrol⟩
  · exact ⟨.plain c, fun s => hwrite ▸ Draft.readMarks_short hunit hc s, fun _ => rfl⟩
  · refine ⟨.unit c.toNat, fun s => hwrite ▸ Draft.readMarks_unit (Draft.hexUnit?_control _ hcontrol) s, fun marks => ?_⟩
    -- a control character is no half of a surrogate pair
    have hlead : Draft.isLead c.toNat = false := by
      rw [Draft.isLead, decide_eq_false (by omega), Bool.false_and]
    have htrail : Draft.isTrail c.toNat = false := by
      rw [Draft.isTrail, decide_eq_false (by omega), Bool.false_and]
    rw [Draft.joinMarks.eq_def]
    simp only [hlead, htrail, Bool.false_eq_true, if_false, Char.ofNat_toNat]
  · exact ⟨.plain c, fun s => hwrite ▸ Draft.readMarks_plain hquote hslash hcontrol s, fun _ => rfl⟩

/-- The inside of a string is read up to the closing quote as marks that stand for its characters. -/
theorem Draft.readMarks_writeChars (s rest : List Char) : ∃ marks,
    Draft.readMarks (Json.writeChars s ++ '"' :: rest) = some (marks, rest) ∧ Draft.joinMarks marks = some s := by
  induction s with
  | nil =>
    refine ⟨[], ?_, rfl⟩
    rw [Json.writeChars, List.flatMap_nil, List.nil_append, Draft.readMarks.eq_def]
    rfl
  | cons c s ih =>
    obtain ⟨mark, hmark, hjoin⟩ := Draft.readMarks_writeChar c
    obtain ⟨marks, hmarks, hchars⟩ := ih
    refine ⟨mark :: marks, ?_, by rw [hjoin, hchars, Option.map_some]⟩
    rw [Json.writeChars, List.flatMap_cons, List.append_assoc, hmark]
    exact congrArg (Option.map _) hmarks

/-- A string is read, past its opening quote, up to its closing quote. -/
theorem Draft.readString_writeChars (s : String) (rest : List Char) :
    Draft.readString (Json.writeChars s.toList ++ '"' :: rest) = (.string s, some rest) := by
  obtain ⟨marks, hmarks, hchars⟩ := Draft.readMarks_writeChars s.toList rest
  rw [Draft.readString, hmarks]
  simp only [hchars, String.ofList_toList]

/-! ## Steps of reading -/

theorem Draft.skipSpace_cons {c : Char} (hc : Draft.isSpace c = false) (s : List Char) : Draft.skipSpace (c :: s) = c :: s := by
  rw [Draft.skipSpace, List.dropWhile_cons, hc]
  rfl

section Head

variable {c : Char} (hc : c = '-' ∨ c.isDigit = true)

include hc

/-- What a numeral starts with is no other character than a minus sign or a digit. -/
theorem Numeral.head_ne {d : Char} (hminus : d ≠ '-') (hdigit : d.isDigit = false) : c ≠ d := by
  rintro rfl
  rcases hc with hc | hc
  · exact hminus hc
  · rw [hdigit] at hc
    nomatch hc

/-- What a numeral starts with is no space. -/
theorem Numeral.isSpace_head : Draft.isSpace c = false := by
  have h₁ := Numeral.head_ne hc (d := ' ') (by decide) (by decide)
  have h₂ := Numeral.head_ne hc (d := '\t') (by decide) (by decide)
  have h₃ := Numeral.head_ne hc (d := '\n') (by decide) (by decide)
  have h₄ := Numeral.head_ne hc (d := '\r') (by decide) (by decide)
  simp only [Draft.isSpace, beq_eq_false_iff_ne.2 h₁, beq_eq_false_iff_ne.2 h₂, beq_eq_false_iff_ne.2 h₃,
    beq_eq_false_iff_ne.2 h₄, Bool.or_self]

end Head

/-- A text that starts with a numeral is read as a number. -/
theorem Draft.readValue_number {s rest : List Char} {n : Numeral} (h : Numeral.read s = some (n, rest)) (fuel : Nat) :
    Draft.readValue (fuel + 1) s = (.number n, some rest) := by
  obtain ⟨c, s₁, rfl, hc⟩ := Numeral.exists_head_of_read h
  have hother : ∀ {d : Char} {t : List Char}, c :: s₁ = d :: t → d ≠ '-' → d.isDigit = false → False :=
    fun heq hminus hdigit => Numeral.head_ne hc hminus hdigit (List.cons.inj heq).1
  rw [Draft.readValue, Draft.skipSpace_cons (Numeral.isSpace_head hc)]
  split
  · rename_i heq
    exact absurd heq (List.cons_ne_nil c s₁)
  · rename_i heq
    exact (hother heq (by decide) (by decide)).elim
  · rename_i heq
    exact (hother heq (by decide) (by decide)).elim
  · rename_i heq
    exact (hother heq (by decide) (by decide)).elim
  · rename_i heq
    exact (hother heq (by decide) (by decide)).elim
  · rename_i heq
    exact (hother heq (by decide) (by decide)).elim
  · rename_i heq
    exact (hother heq (by decide) (by decide)).elim
  · rw [h]

/-- A text with a quote in front goes on with a string. -/
theorem Draft.readValue_quote (s : List Char) (fuel : Nat) : Draft.readValue (fuel + 1) ('"' :: s) = Draft.readString s := by
  rw [Draft.readValue, Draft.skipSpace_cons (by decide)]
  rfl

/-- An opening bracket with an item after it goes on with items. -/
theorem Draft.readValue_bracket {c : Char} (hspace : Draft.isSpace c = false) (hc : c ≠ ']') (s : List Char) (fuel : Nat) :
    Draft.readValue (fuel + 1) ('[' :: c :: s) =
      (.array (Draft.readItems fuel (c :: s)).1, (Draft.readItems fuel (c :: s)).2) := by
  rw [Draft.readValue, Draft.skipSpace_cons (by decide)]
  simp only [Draft.skipSpace_cons hspace]
  split
  · rename_i heq
    exact absurd (List.cons.inj heq).1 hc
  · rfl

/-- An opening brace with a quote after it goes on with members. -/
theorem Draft.readValue_brace (s : List Char) (fuel : Nat) : Draft.readValue (fuel + 1) ('\x7b' :: '"' :: s) =
    (.object (Draft.readMembers fuel ('"' :: s)).1, (Draft.readMembers fuel ('"' :: s)).2) := by
  rw [Draft.readValue, Draft.skipSpace_cons (by decide)]
  rfl

theorem Json.writeString_append (s : String) (rest : List Char) :
    Json.writeString s ++ rest = '"' :: (Json.writeChars s.toList ++ '"' :: rest) := by
  simp only [Json.writeString, List.cons_append, List.append_assoc, List.nil_append]

section Steps

variable {fuel : Nat} {s rest : List Char} {x : Draft}

theorem Draft.readItems_comma (h : Draft.readValue fuel s = (x, some (',' :: rest))) :
    Draft.readItems (fuel + 1) s = (x :: (Draft.readItems fuel rest).1, (Draft.readItems fuel rest).2) := by
  rw [Draft.readItems, h]
  rfl

theorem Draft.readItems_bracket (h : Draft.readValue fuel s = (x, some (']' :: rest))) :
    Draft.readItems (fuel + 1) s = ([x], some rest) := by
  rw [Draft.readItems, h]
  rfl

theorem Draft.readMembers_comma (h : Draft.readValue fuel s = (x, some (',' :: rest))) (key : String) :
    Draft.readMembers (fuel + 1) (Json.writeString key ++ ':' :: s) =
      ((.string key, x) :: (Draft.readMembers fuel rest).1, (Draft.readMembers fuel rest).2) := by
  have hcolon : Draft.skipSpace (':' :: s) = ':' :: s := Draft.skipSpace_cons (by decide) s
  have hcomma : Draft.skipSpace (',' :: rest) = ',' :: rest := Draft.skipSpace_cons (by decide) rest
  rw [Json.writeString_append, Draft.readMembers, Draft.skipSpace_cons (by decide)]
  simp only [Draft.readString_writeChars, hcolon, h, hcomma]

theorem Draft.readMembers_brace (h : Draft.readValue fuel s = (x, some ('\x7d' :: rest))) (key : String) :
    Draft.readMembers (fuel + 1) (Json.writeString key ++ ':' :: s) = ([(.string key, x)], some rest) := by
  have hcolon : Draft.skipSpace (':' :: s) = ':' :: s := Draft.skipSpace_cons (by decide) s
  have hbrace : Draft.skipSpace ('\x7d' :: rest) = '\x7d' :: rest := Draft.skipSpace_cons (by decide) rest
  rw [Json.writeString_append, Draft.readMembers, Draft.skipSpace_cons (by decide)]
  simp only [Draft.readString_writeChars, hcolon, h, hbrace]

end Steps

/-! ## Values -/

/-- A number is written as a numeral that stands for it, if its float reads back. -/
theorem Json.Number.readsBack_of_floats {n : Json.Number} (h : ∀ x ∈ (Json.number n).floats, x.ReadsBack) : n.ReadsBack := by
  cases n with
  | whole n fits => exact Json.Number.readsBack_whole n fits
  | float x finite => exact Json.Number.readsBack_float finite (h x List.mem_cons_self)

/-- What is written for a value starts with a character that is neither a space nor a closing bracket. -/
theorem Json.exists_head_write {j : Json} (h : ∀ x ∈ j.floats, x.ReadsBack) :
    ∃ c s, j.write = c :: s ∧ Draft.isSpace c = false ∧ c ≠ ']' := by
  match j with
  | .null | .bool true | .bool false | .string _ | .array [] | .object [] => exact ⟨_, _, rfl, by decide, by decide⟩
  | .array (_ :: _) | .object ((_, _) :: _) => exact ⟨_, _, rfl, by decide, by decide⟩
  | .number n =>
    obtain ⟨c, s, hs, hc⟩ := Numeral.exists_head_of_read (Json.Number.readsBack_of_floats h).1
    exact ⟨c, s, hs, Numeral.isSpace_head hc, Numeral.head_ne hc (by decide) (by decide)⟩

/-- What is written after the first item of an array is not empty. -/
theorem Json.length_writeItems_pos (xs : List Json) : 0 < (Json.writeItems xs).length := by
  cases xs <;> simp [Json.writeItems]

/-- What is written after the first entry of an object is not empty. -/
theorem Json.length_writeEntries_pos (es : List (String × Json)) : 0 < (Json.writeEntries es).length := by
  rcases es with _ | ⟨⟨k, x⟩, es⟩ <;> simp [Json.writeEntries]

/-- A numeral ends where what follows the first item of an array is written. -/
theorem Numeral.endsAt_writeItems (xs : List Json) (rest : List Char) : Numeral.EndsAt (Json.writeItems xs ++ rest) := by
  cases xs with
  | nil => exact Numeral.endsAt_cons (.inr (.inl rfl)) _
  | cons x xs => exact Numeral.endsAt_cons (.inl rfl) _

/-- A numeral ends where what follows the first entry of an object is written. -/
theorem Numeral.endsAt_writeEntries (es : List (String × Json)) (rest : List Char) :
    Numeral.EndsAt (Json.writeEntries es ++ rest) := by
  rcases es with _ | ⟨⟨k, x⟩, es⟩
  · exact Numeral.endsAt_cons (.inr (.inr rfl)) _
  · exact Numeral.endsAt_cons (.inl rfl) _

section Parts

variable (x : Json) (xs : List Json) (k : String) (es : List (String × Json)) (rest : List Char)

theorem Json.write_array_cons :
    (Json.array (x :: xs)).write ++ rest = '[' :: (x.write ++ (Json.writeItems xs ++ rest)) := by
  simp only [Json.write, List.cons_append, List.append_assoc]

theorem Json.writeItems_cons : Json.writeItems (x :: xs) ++ rest = ',' :: (x.write ++ (Json.writeItems xs ++ rest)) := by
  simp only [Json.writeItems, List.cons_append, List.append_assoc]

theorem Json.write_object_cons : (Json.object ((k, x) :: es)).write ++ rest =
    '\x7b' :: (Json.writeString k ++ ':' :: (x.write ++ (Json.writeEntries es ++ rest))) := by
  simp only [Json.write, List.cons_append, List.append_assoc]

theorem Json.writeEntries_cons : Json.writeEntries ((k, x) :: es) ++ rest =
    ',' :: (Json.writeString k ++ ':' :: (x.write ++ (Json.writeEntries es ++ rest))) := by
  simp only [Json.writeEntries, List.cons_append, List.append_assoc]

end Parts

mutual

/-- A written value is read as its draft, whatever follows it that a numeral ends at. -/
theorem Draft.readValue_write : ∀ j : Json, (∀ x ∈ j.floats, x.ReadsBack) → ∀ {fuel : Nat} {rest : List Char},
    2 * j.write.length < fuel → Numeral.EndsAt rest → Draft.readValue fuel (j.write ++ rest) = (j.draft, some rest)
  | _, _, 0, _, hfuel, _ => absurd hfuel (Nat.not_lt_zero _)
  | .null, _, fuel + 1, rest, _, _ => rfl
  | .bool true, _, fuel + 1, rest, _, _ => rfl
  | .bool false, _, fuel + 1, rest, _, _ => rfl
  | .number n, h, fuel + 1, rest, _, hrest =>
    Draft.readValue_number (Numeral.read_append hrest (Json.Number.readsBack_of_floats h).1) fuel
  | .string s, _, fuel + 1, rest, _, _ => by
    rw [Json.write, Json.writeString_append, Draft.readValue_quote, Draft.readString_writeChars]
    rfl
  | .array [], _, fuel + 1, rest, _, _ => rfl
  | .array (x :: xs), h, fuel + 1, rest, hfuel, _ => by
    obtain ⟨hx, hxs⟩ := List.forall_mem_append.1 h
    obtain ⟨c, s, hs, hspace, hbracket⟩ := Json.exists_head_write hx
    have hpos := Json.length_writeItems_pos xs
    simp only [Json.write, List.length_cons, List.length_append] at hfuel
    obtain ⟨fuel, rfl⟩ : ∃ g, fuel = g + 1 := ⟨fuel - 1, by omega⟩
    have hvalue : Draft.readValue fuel _ = _ := Draft.readValue_write x hx (by omega) (Numeral.endsAt_writeItems xs rest)
    have hitems := Draft.readItems_write xs hxs (by omega) hvalue
    rw [hs, List.cons_append] at hitems
    rw [Json.write_array_cons, hs, List.cons_append, Draft.readValue_bracket hspace hbracket, hitems]
    rfl
  | .object [], _, fuel + 1, rest, _, _ => rfl
  | .object ((k, x) :: es), h, fuel + 1, rest, hfuel, _ => by
    obtain ⟨hx, hes⟩ := List.forall_mem_append.1 h
    have hpos := Json.length_writeEntries_pos es
    simp only [Json.write, List.length_cons, List.length_append] at hfuel
    obtain ⟨fuel, rfl⟩ : ∃ g, fuel = g + 1 := ⟨fuel - 1, by omega⟩
    have hvalue : Draft.readValue fuel _ = _ := Draft.readValue_write x hx (by omega) (Numeral.endsAt_writeEntries es rest)
    have hmembers := Draft.readMembers_write es hes (by omega) hvalue k
    rw [Json.writeString_append] at hmembers
    rw [Json.write_object_cons, Json.writeString_append, Draft.readValue_brace, hmembers]
    rfl

/-- Written items are read after an item that has been read. -/
theorem Draft.readItems_write : ∀ xs : List Json, (∀ x ∈ Json.floatsOf xs, x.ReadsBack) → ∀ {fuel : Nat} {d : Draft}
    {s rest : List Char}, 2 * (Json.writeItems xs).length ≤ fuel + 1 →
      Draft.readValue fuel s = (d, some (Json.writeItems xs ++ rest)) →
      Draft.readItems (fuel + 1) s = (d :: Json.draftItems xs, some rest)
  | [], _, _, _, _, _, _, hd => Draft.readItems_bracket hd
  | x :: xs, h, fuel, d, s, rest, hfuel, hd => by
    obtain ⟨hx, hxs⟩ := List.forall_mem_append.1 h
    have hpos := Json.length_writeItems_pos xs
    simp only [Json.writeItems, List.length_cons, List.length_append] at hfuel
    obtain ⟨fuel, rfl⟩ : ∃ g, fuel = g + 1 := ⟨fuel - 1, by omega⟩
    rw [Json.writeItems_cons] at hd
    have hvalue : Draft.readValue fuel _ = _ := Draft.readValue_write x hx (by omega) (Numeral.endsAt_writeItems xs rest)
    rw [Draft.readItems_comma hd, Draft.readItems_write xs hxs (by omega) hvalue]
    rfl

/-- Written entries are read after an entry that has been read. -/
theorem Draft.readMembers_write : ∀ es : List (String × Json), (∀ x ∈ Json.floatsOfEntries es, x.ReadsBack) → ∀ {fuel : Nat}
    {d : Draft} {s rest : List Char}, 2 * (Json.writeEntries es).length ≤ fuel + 1 →
      Draft.readValue fuel s = (d, some (Json.writeEntries es ++ rest)) → ∀ key,
      Draft.readMembers (fuel + 1) (Json.writeString key ++ ':' :: s) = ((.string key, d) :: Json.draftEntries es, some rest)
  | [], _, _, _, _, _, _, hd, key => Draft.readMembers_brace hd key
  | (k, x) :: es, h, fuel, d, s, rest, hfuel, hd, key => by
    obtain ⟨hx, hes⟩ := List.forall_mem_append.1 h
    have hpos := Json.length_writeEntries_pos es
    simp only [Json.writeEntries, List.length_cons, List.length_append] at hfuel
    obtain ⟨fuel, rfl⟩ : ∃ g, fuel = g + 1 := ⟨fuel - 1, by omega⟩
    rw [Json.writeEntries_cons] at hd
    have hvalue : Draft.readValue fuel _ = _ := Draft.readValue_write x hx (by omega) (Numeral.endsAt_writeEntries es rest)
    rw [Draft.readMembers_comma hd, Draft.readMembers_write es hes (by omega) hvalue k]
    rfl

end

/-- The text of a value is read to its end as the draft of the value. -/
theorem Draft.read_text {j : Json} (h : ∀ x ∈ j.floats, x.ReadsBack) : Draft.read j.text = ⟨j.draft, true⟩ := by
  have hread : Draft.readValue (2 * j.write.length + 2) _ = _ := Draft.readValue_write j h (by omega) Numeral.endsAt_nil
  rw [List.append_nil] at hread
  unfold Draft.read
  dsimp only
  rw [Json.text, String.toList_ofList, hread]
  rfl

end WhereClause
