import WhereClause.Proofs.Reading

/-!
# Quoting: an identifier says its name and where it ends

Inside an identifier the reader takes quotes in pairs from the left, just as they were written, so that it is in step at the end
of every run of quotes in the name, wherever the run stands. The quote that closes the identifier has then no partner, as long as
none follows. So a text that reads as a name is that name with its quotes doubled, closed by a quote, and the rest
(`Dialect.readQuoted_eq_some_iff`): an identifier is read as its name whatever comes after it, and nothing else is read as one
(`Dialect.readIdentifier_identifier`).
-/

namespace WhereClause

/-! ## One step of the reader -/

theorem Dialect.readQuoted_pair (q : Char) (s : List Char) :
    Dialect.readQuoted q (q :: q :: s) = (Dialect.readQuoted q s).map fun (inside, rest) => (q :: inside, rest) := by
  simp [Dialect.readQuoted]

theorem Dialect.readQuoted_end {q : Char} {rest : List Char} (h : rest.head? ≠ some q) :
    Dialect.readQuoted q (q :: rest) = some ([], rest) := by
  cases rest with
  | nil => simp [Dialect.readQuoted]
  | cons c rest =>
    have hc : c ≠ q := fun e => h (congrArg some e)
    simp [Dialect.readQuoted, hc]

theorem Dialect.readQuoted_letter {q c : Char} (h : c ≠ q) (s : List Char) :
    Dialect.readQuoted q (c :: s) = (Dialect.readQuoted q s).map fun (inside, rest) => (c :: inside, rest) := by
  rw [Dialect.readQuoted.eq_def]
  simp [h]

/-- A name that was read with a character put before it starts with that character. -/
theorem Dialect.exists_of_map_cons {c : Char} {read : Option (List Char × List Char)} {name rest : List Char}
    (h : (read.map fun (inside, rest) => (c :: inside, rest)) = some (name, rest)) :
    ∃ inside, read = some (inside, rest) ∧ name = c :: inside := by
  obtain ⟨⟨inside, left⟩, hread, hname⟩ := Option.map_eq_some_iff.1 h
  obtain ⟨rfl, rfl⟩ := Prod.mk.inj hname
  exact ⟨inside, hread, rfl⟩

/-! ## Names between quotes -/

theorem Dialect.doubled_quote (q : Char) (s : List Char) : Dialect.doubled q (q :: s) = q :: q :: Dialect.doubled q s := by
  simp [Dialect.doubled]

theorem Dialect.doubled_letter {q c : Char} (h : c ≠ q) (s : List Char) :
    Dialect.doubled q (c :: s) = c :: Dialect.doubled q s := by
  simp [Dialect.doubled, h]

/-- A text that is read as a name is the name with its quotes doubled, a quote that closes it, and what is left, which does not
start with a quote. -/
theorem Dialect.eq_doubled_of_readQuoted {q : Char} {s name rest : List Char}
    (h : Dialect.readQuoted q s = some (name, rest)) :
    s = Dialect.doubled q name ++ q :: rest ∧ rest.head? ≠ some q := by
  -- The induction goes as the reader does, two quotes at a time: a step of one character would part a pair.
  induction s using Dialect.readQuoted.induct q generalizing name with
  | case1 => simp [Dialect.readQuoted] at h
  | case2 =>
    rw [Dialect.readQuoted_end (by simp)] at h
    obtain ⟨rfl, rfl⟩ := Prod.mk.inj (Option.some.inj h)
    simp [Dialect.doubled]
  | case3 s ih =>
    rw [Dialect.readQuoted_pair] at h
    obtain ⟨inside, hread, rfl⟩ := Dialect.exists_of_map_cons h
    obtain ⟨hs, hrest⟩ := ih hread
    rw [Dialect.doubled_quote, List.cons_append, List.cons_append, ← hs]
    exact ⟨rfl, hrest⟩
  | case4 c s hc =>
    have hnext : (c :: s).head? ≠ some q := fun e => hc (Option.some.inj e)
    rw [Dialect.readQuoted_end hnext] at h
    obtain ⟨rfl, rfl⟩ := Prod.mk.inj (Option.some.inj h)
    exact ⟨rfl, hnext⟩
  | case5 c s hc ih =>
    rw [Dialect.readQuoted_letter hc] at h
    obtain ⟨inside, hread, rfl⟩ := Dialect.exists_of_map_cons h
    obtain ⟨hs, hrest⟩ := ih hread
    rw [Dialect.doubled_letter hc, List.cons_append, ← hs]
    exact ⟨rfl, hrest⟩

/-- What is read as a name is exactly the name with its quotes doubled, closed by a quote that none follows. -/
theorem Dialect.readQuoted_eq_some_iff {q : Char} {s name rest : List Char} :
    Dialect.readQuoted q s = some (name, rest) ↔ s = Dialect.doubled q name ++ q :: rest ∧ rest.head? ≠ some q := by
  constructor
  · exact Dialect.eq_doubled_of_readQuoted
  · rintro ⟨rfl, hrest⟩
    exact Dialect.readQuoted_doubled q name rest hrest

/-! ## Identifiers -/

/-- An identifier in a dialect with a quote: the name with its quotes doubled, between two quotes. -/
theorem Dialect.toList_identifier {d : Dialect} {q : Char} (hq : d.quote? = some q) (name : String) :
    (d.identifier name).toList = q :: (Dialect.doubled q name.toList ++ [q]) := by
  simp [Dialect.identifier, hq]

/-- What is read as an identifier is exactly the identifier of the name, where no quote follows. -/
theorem Dialect.readIdentifier_eq_some_iff {d : Dialect} {q : Char} (hq : d.quote? = some q) {s : List Char} {name : String}
    {rest : List Char} :
    d.readIdentifier s = some (name, rest) ↔ s = (d.identifier name).toList ++ rest ∧ rest.head? ≠ some q := by
  rw [Dialect.toList_identifier hq, List.cons_append, List.append_assoc, List.singleton_append]
  cases s with
  | nil => simp [Dialect.readIdentifier]
  | cons c s =>
    by_cases hc : c = q
    · subst hc
      simp only [Dialect.readIdentifier, if_pos hq, Option.map_eq_some_iff, Prod.exists, Prod.mk.injEq, List.cons.injEq,
        true_and, ← Dialect.readQuoted_eq_some_iff]
      constructor
      · rintro ⟨inside, rest', hread, rfl, rfl⟩
        simpa using hread
      · intro hread
        exact ⟨name.toList, rest, hread, String.ofList_toList, rfl⟩
    · have hne : d.quote? ≠ some c := fun e => hc (Option.some.inj (e.symm.trans hq))
      simp [Dialect.readIdentifier, hne, hc]

/-- In a dialect that quotes identifiers, an identifier is read as its name, whatever stands in the name, and what follows it is
left, whatever that is, unless it starts with a quote. Nothing but an identifier is read as one, and different names have
different identifiers. -/
theorem Dialect.readIdentifier_identifier (d : Dialect) (hd : d ≠ .standard) :
    (∀ (name : String) (rest : List Char), rest.head? ≠ d.quote? →
      d.readIdentifier ((d.identifier name).toList ++ rest) = some (name, rest)) ∧
    (∀ (s : List Char) (name : String) (rest : List Char), d.readIdentifier s = some (name, rest) →
      s = (d.identifier name).toList ++ rest ∧ rest.head? ≠ d.quote?) ∧
    Function.Injective d.identifier := by
  obtain ⟨q, hq⟩ := Dialect.exists_quote hd
  rw [hq]
  refine ⟨fun name rest hrest => ?_, fun s name rest => ?_, fun a b hab => ?_⟩
  · exact (Dialect.readIdentifier_eq_some_iff hq).2 ⟨rfl, hrest⟩
  · exact (Dialect.readIdentifier_eq_some_iff hq).1
  · -- The identifier that both have, with nothing after it, is read as either name.
    have hread : ∀ name : String, d.readIdentifier ((d.identifier name).toList ++ []) = some (name, []) :=
      fun name => (Dialect.readIdentifier_eq_some_iff hq).2 ⟨rfl, by simp⟩
    have ha := hread a
    rw [hab, hread b] at ha
    exact (Prod.mk.inj (Option.some.inj ha)).1.symm

/-- A name with quotes at its start, inside it and at its end is read back up to its closing quote, before a placeholder. -/
theorem Dialect.readIdentifier_identifier_runs :
    Dialect.postgres ≠ .standard ∧ (" = $1".toList.head? ≠ Dialect.postgres.quote?) ∧
      Dialect.postgres.identifier "\"\"we\"ird\"" = "\"\"\"\"\"we\"\"ird\"\"\"" ∧
      Dialect.postgres.readIdentifier "\"\"\"\"\"we\"\"ird\"\"\" = $1".toList = some ("\"\"we\"ird\"", " = $1".toList) := by
  have hd : Dialect.postgres ≠ .standard := by decide
  have hnext : " = $1".toList.head? ≠ Dialect.postgres.quote? := by decide
  have hwritten : Dialect.postgres.identifier "\"\"we\"ird\"" = "\"\"\"\"\"we\"\"ird\"\"\"" := by decide +kernel
  refine ⟨hd, hnext, hwritten, ?_⟩
  have hread := (Dialect.readIdentifier_identifier .postgres hd).1 "\"\"we\"ird\"" " = $1".toList hnext
  rw [hwritten] at hread
  exact hread

end WhereClause
