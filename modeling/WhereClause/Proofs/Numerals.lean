import Mathlib.Data.List.TakeWhile
import WhereClause.Json.Echo

/-!
# Numerals: written numbers read back

A whole number of 64 bits is read as it was written (`Json.Number.readsBack_whole`), and a float is wherever its digits stand
for it: what is written for a float has a point or an exponent, and so is never read as a whole number. A numeral is read to
its end whatever follows it, if that does not start with a digit, a point or an exponent's mark (`Numeral.read_append`), as
nothing does that follows a value in a JSON text.
-/

namespace WhereClause

/-! ## Where a numeral ends -/

/-- A text that no numeral before it runs on into: it does not start with a digit, a point or the mark of an exponent. -/
def Numeral.EndsAt (rest : List Char) : Prop := ∀ c, rest.head? = some c → c.isDigit = false ∧ c ≠ '.' ∧ c ≠ 'e' ∧ c ≠ 'E'

theorem Numeral.endsAt_nil : Numeral.EndsAt [] := nofun

theorem Numeral.endsAt_cons {c : Char} (hc : c = ',' ∨ c = ']' ∨ c = '\x7d') (s : List Char) : Numeral.EndsAt (c :: s) := by
  intro d hd
  cases hd
  rcases hc with rfl | rfl | rfl <;> decide

/-- No digit is next where a numeral ends. -/
theorem Numeral.EndsAt.digitNext {rest : List Char} (h : Numeral.EndsAt rest) : Numeral.digitNext rest = false := by
  cases rest with
  | nil => rfl
  | cons c rest => exact (h c rfl).1

/-- A whole part that does not start with a zero is a run of digits. -/
theorem Numeral.readWhole_of_ne {s : List Char} (h : ∀ rest, s ≠ '0' :: rest) : Numeral.readWhole s =
    if (Text.spanDigits s).1.isEmpty then none else some (Numeral.values (Text.spanDigits s).1, (Text.spanDigits s).2) := by
  unfold Numeral.readWhole
  split
  · exact absurd rfl (h _)
  · rfl

/-- Where there is no point there are no digits after it. -/
theorem Numeral.readFraction_of_ne {s : List Char} (h : ∀ rest, s ≠ '.' :: rest) : Numeral.readFraction s = some ([], s) := by
  unfold Numeral.readFraction
  split
  · exact absurd rfl (h _)
  · rfl

/-- The digits after a point are a run of digits. -/
theorem Numeral.readFraction_point (s : List Char) : Numeral.readFraction ('.' :: s) =
    if (Text.spanDigits s).1.isEmpty then none else some (Numeral.values (Text.spanDigits s).1, (Text.spanDigits s).2) := rfl

/-- A sign is the first character, if that is one. -/
theorem Numeral.readSign_cons (c : Char) (s : List Char) : Numeral.readSign (c :: s) =
    if c = '+' then (false, s) else if c = '-' then (true, s) else (false, c :: s) := by
  unfold Numeral.readSign
  split
  · rename_i heq
    cases heq
    rfl
  · rename_i heq
    cases heq
    rfl
  · rename_i hplus hminus
    rw [if_neg fun hc => hplus s (by rw [hc]), if_neg fun hc => hminus s (by rw [hc])]

/-- A sign is read, or not, whatever text follows. -/
theorem Numeral.readSign_append {s : List Char} (hs : s ≠ []) (rest : List Char) :
    Numeral.readSign (s ++ rest) = ((Numeral.readSign s).1, (Numeral.readSign s).2 ++ rest) := by
  obtain ⟨c, s, rfl⟩ := List.exists_cons_of_ne_nil hs
  rw [List.cons_append, Numeral.readSign_cons, Numeral.readSign_cons]
  split
  · rfl
  · split <;> rfl

/-- After its mark, an exponent is a run of digits with a sign before it or without. -/
theorem Numeral.readExponent_mark {c : Char} (hc : c = 'e' ∨ c = 'E') (s : List Char) : Numeral.readExponent (c :: s) =
    if (Text.spanDigits (Numeral.readSign s).2).1.isEmpty then none
    else
      let n : Int := Text.valueOf 10 (Numeral.values (Text.spanDigits (Numeral.readSign s).2).1)
      some (some (if (Numeral.readSign s).1 then -n else n), (Text.spanDigits (Numeral.readSign s).2).2) := by
  rw [Numeral.readExponent, if_pos hc]

/-- A numeral is a sign or none, the digits before the point, those after it, and the exponent. -/
theorem Numeral.read_eq_some_iff {s rest : List Char} {n : Numeral} : Numeral.read s = some (n, rest) ↔
    ∃ s₀ s₁ s₂, (n.negative = true ∧ s = '-' :: s₀ ∨ n.negative = false ∧ s = s₀ ∧ ∀ s₁, s ≠ '-' :: s₁) ∧
      Numeral.readWhole s₀ = some (n.whole, s₁) ∧ Numeral.readFraction s₁ = some (n.fraction, s₂) ∧
      Numeral.readExponent s₂ = some (n.exponent, rest) := by
  obtain ⟨negative, whole, fraction, exponent⟩ := n
  unfold Numeral.read
  simp only [Option.bind_eq_bind, Option.bind_eq_some_iff, Option.pure_def, Option.some.injEq, Prod.exists, Prod.mk.injEq,
    Numeral.mk.injEq]
  split
  · rename_i s
    constructor
    · rintro ⟨w, s₁, hw, f, s₂, hf, e, s₃, he, ⟨hneg, rfl, rfl, rfl⟩, rfl⟩
      exact ⟨s, s₁, s₂, .inl ⟨hneg.symm, rfl⟩, hw, hf, he⟩
    · rintro ⟨s₀, s₁, s₂, ⟨hneg, hs⟩ | ⟨-, -, hplain⟩, hw, hf, he⟩
      · cases hs
        exact ⟨whole, s₁, hw, fraction, s₂, hf, exponent, rest, he, ⟨hneg.symm, rfl, rfl, rfl⟩, rfl⟩
      · exact absurd rfl (hplain s)
  · rename_i hplain
    constructor
    · rintro ⟨w, s₁, hw, f, s₂, hf, e, s₃, he, ⟨hneg, rfl, rfl, rfl⟩, rfl⟩
      exact ⟨s, s₁, s₂, .inr ⟨hneg.symm, rfl, hplain⟩, hw, hf, he⟩
    · rintro ⟨s₀, s₁, s₂, ⟨-, hs⟩ | ⟨hneg, rfl, -⟩, hw, hf, he⟩
      · exact absurd hs (hplain s₀)
      · exact ⟨whole, s₁, hw, fraction, s₂, hf, exponent, rest, he, ⟨hneg.symm, rfl, rfl, rfl⟩, rfl⟩

/-- A whole part has at least one digit, and starts with one. -/
theorem Numeral.exists_digit_of_readWhole {s s' : List Char} {digits : List Nat} (h : Numeral.readWhole s = some (digits, s')) :
    ∃ c s₁, s = c :: s₁ ∧ c.isDigit = true := by
  by_cases hzero : ∃ s₁, s = '0' :: s₁
  · obtain ⟨s₁, rfl⟩ := hzero
    exact ⟨'0', s₁, rfl, by decide⟩
  · rw [Numeral.readWhole_of_ne fun s₁ hs => hzero ⟨s₁, hs⟩] at h
    split at h
    · nomatch h
    · rename_i hdigits
      cases s with
      | nil => exact absurd rfl hdigits
      | cons c s =>
        refine ⟨c, s, rfl, ?_⟩
        cases hc : c.isDigit with
        | true => rfl
        | false =>
          refine absurd ?_ hdigits
          rw [Text.spanDigits, List.takeWhile_cons, hc]
          rfl

/-- A numeral starts with a minus sign or a digit. -/
theorem Numeral.exists_head_of_read {s rest : List Char} {n : Numeral} (h : Numeral.read s = some (n, rest)) :
    ∃ c s₁, s = c :: s₁ ∧ (c = '-' ∨ c.isDigit = true) := by
  obtain ⟨s₀, s₁, s₂, hsign, hwhole, -, -⟩ := Numeral.read_eq_some_iff.1 h
  rcases hsign with ⟨-, rfl⟩ | ⟨-, rfl, -⟩
  · exact ⟨'-', s₀, rfl, .inl rfl⟩
  · obtain ⟨c, s₁, hs, hc⟩ := Numeral.exists_digit_of_readWhole hwhole
    exact ⟨c, s₁, hs, .inr hc⟩

section Append

variable {rest : List Char} (hrest : Numeral.EndsAt rest)

include hrest

/-- A run of digits ends where it did when a text follows that a numeral ends at. -/
theorem Numeral.spanDigits_append (s : List Char) :
    Text.spanDigits (s ++ rest) = ((Text.spanDigits s).1, (Text.spanDigits s).2 ++ rest) := by
  induction s with
  | nil =>
    cases rest with
    | nil => rfl
    | cons c rest =>
      have hc : c.isDigit = false := (hrest c rfl).1
      rw [List.nil_append, Text.spanDigits, List.takeWhile_cons, List.dropWhile_cons, hc]
      rfl
  | cons c s ih =>
    unfold Text.spanDigits at ih ⊢
    rw [List.cons_append, List.takeWhile_cons, List.dropWhile_cons, List.takeWhile_cons, List.dropWhile_cons]
    obtain ⟨htake, hdrop⟩ := Prod.mk.inj ih
    cases hc : c.isDigit with
    | true => simp only [if_true, htake, hdrop]
    | false => simp only [Bool.false_eq_true, if_false, List.cons_append]

/-- A digit is next before and after a text is added that a numeral ends at, or neither. -/
theorem Numeral.digitNext_append (s : List Char) : Numeral.digitNext (s ++ rest) = Numeral.digitNext s := by
  cases s with
  | nil => exact hrest.digitNext
  | cons c s => rfl

/-- The digits before the point are read with a text after them that a numeral ends at. -/
theorem Numeral.readWhole_append {s s' : List Char} {digits : List Nat} (h : Numeral.readWhole s = some (digits, s')) :
    Numeral.readWhole (s ++ rest) = some (digits, s' ++ rest) := by
  by_cases hzero : ∃ s₁, s = '0' :: s₁
  · obtain ⟨s, rfl⟩ := hzero
    rw [Numeral.readWhole] at h
    rw [List.cons_append, Numeral.readWhole, Numeral.digitNext_append hrest]
    split at h
    · nomatch h
    · rename_i hnext
      cases h
      rw [if_neg hnext]
  · have hne : ∀ s₁, s ≠ '0' :: s₁ := fun s₁ hs => hzero ⟨s₁, hs⟩
    rw [Numeral.readWhole_of_ne hne] at h
    split at h
    · nomatch h
    · rename_i hempty
      cases h
      have hne' : ∀ s₁, s ++ rest ≠ '0' :: s₁ := by
        intro s₁ hs₁
        cases s with
        | nil => exact hempty rfl
        | cons c s =>
          cases hs₁
          exact hne s rfl
      rw [Numeral.readWhole_of_ne hne', Numeral.spanDigits_append hrest, if_neg hempty]

/-- The digits after the point are read with a text after them that a numeral ends at. -/
theorem Numeral.readFraction_append {s s' : List Char} {digits : List Nat} (h : Numeral.readFraction s = some (digits, s')) :
    Numeral.readFraction (s ++ rest) = some (digits, s' ++ rest) := by
  by_cases hpoint : ∃ s₁, s = '.' :: s₁
  · obtain ⟨s, rfl⟩ := hpoint
    rw [Numeral.readFraction_point] at h
    split at h
    · nomatch h
    · rename_i hempty
      cases h
      rw [List.cons_append, Numeral.readFraction_point, Numeral.spanDigits_append hrest, if_neg hempty]
  · have hne : ∀ s₁, s ≠ '.' :: s₁ := fun s₁ hs => hpoint ⟨s₁, hs⟩
    rw [Numeral.readFraction_of_ne hne] at h
    cases h
    refine Numeral.readFraction_of_ne fun s₁ hs₁ => ?_
    cases s with
    | nil => exact (hrest '.' (by rw [← List.nil_append rest, hs₁]; rfl)).2.1 rfl
    | cons c s =>
      cases hs₁
      exact hne s rfl

/-- The exponent is read with a text after it that a numeral ends at. -/
theorem Numeral.readExponent_append {s s' : List Char} {exponent : Option Int}
    (h : Numeral.readExponent s = some (exponent, s')) :
    Numeral.readExponent (s ++ rest) = some (exponent, s' ++ rest) := by
  cases s with
  | nil =>
    cases h
    cases rest with
    | nil => rfl
    | cons c rest =>
      have hmark : ¬ (c = 'e' ∨ c = 'E') := not_or.2 (hrest c rfl).2.2
      rw [List.nil_append, Numeral.readExponent, if_neg hmark]
  | cons c s =>
    rw [List.cons_append]
    by_cases hmark : c = 'e' ∨ c = 'E'
    · rw [Numeral.readExponent_mark hmark] at h ⊢
      split at h
      · nomatch h
      · rename_i hdigits
        cases h
        have hs : s ≠ [] := fun hs => hdigits (by rw [hs]; rfl)
        rw [Numeral.readSign_append hs rest, Numeral.spanDigits_append hrest, if_neg hdigits]
    · rw [Numeral.readExponent, if_neg hmark] at h ⊢
      cases h
      rfl

/-- A numeral is read with a text after it that it ends at. -/
theorem Numeral.read_append {s : List Char} {n : Numeral} (h : Numeral.read s = some (n, [])) :
    Numeral.read (s ++ rest) = some (n, rest) := by
  obtain ⟨s₀, s₁, s₂, hsign, hwhole, hfraction, hexponent⟩ := Numeral.read_eq_some_iff.1 h
  refine Numeral.read_eq_some_iff.2 ⟨s₀ ++ rest, s₁ ++ rest, s₂ ++ rest, ?_, Numeral.readWhole_append hrest hwhole,
    Numeral.readFraction_append hrest hfraction, Numeral.readExponent_append hrest hexponent⟩
  rcases hsign with ⟨hneg, rfl⟩ | ⟨hneg, rfl, hplain⟩
  · exact .inl ⟨hneg, rfl⟩
  · refine .inr ⟨hneg, rfl, fun s₃ hs => ?_⟩
    obtain ⟨c, s₄, rfl, -⟩ := Numeral.exists_digit_of_readWhole hwhole
    cases hs
    exact hplain s₄ rfl

end Append

/-! ## Numbers -/

/-- A number is written as a numeral that stands for it. -/
def Json.Number.ReadsBack (n : Json.Number) : Prop :=
  Numeral.read n.write = some (n.numeral, []) ∧ n.numeral.toNumber? = some n

/-- A number is written as a numeral that stands for it if its text is some numeral that does. -/
theorem Json.Number.readsBack_of_read {n : Json.Number} {numeral : Numeral} (hread : Numeral.read n.write = some (numeral, []))
    (hvalue : numeral.toNumber? = some n) : n.ReadsBack := by
  have hnumeral : n.numeral = numeral := by rw [Json.Number.numeral, hread]
  exact ⟨by rw [hnumeral, hread], by rw [hnumeral, hvalue]⟩

/-! ### Whole numbers -/

/-- A run of digits alone is read to its end. -/
theorem Text.spanDigits_of_all {s : List Char} (h : ∀ c ∈ s, c.isDigit = true) : Text.spanDigits s = (s, []) := by
  unfold Text.spanDigits
  rw [List.takeWhile_eq_self_iff.2 h, List.dropWhile_eq_nil_iff.2 h]

/-- A number that is not zero is not written with a zero in front. -/
theorem Numeral.toDigits_ne_zero_cons {k : Nat} (hk : 0 < k) (rest : List Char) : Nat.toDigits 10 k ≠ '0' :: rest := by
  induction k using Nat.strongRecOn generalizing rest with
  | ind k ih =>
    intro h
    by_cases hlt : k < 10
    · rw [Nat.toDigits_of_lt_base hlt] at h
      have hzero : k = 0 := Nat.digitChar_eq_zero.1 (List.cons.inj h).1
      omega
    · rw [Nat.toDigits_of_base_le (by decide) (by omega)] at h
      obtain ⟨c, s, hs⟩ := List.exists_cons_of_ne_nil (Nat.toDigits_ne_nil (n := k / 10) (b := 10))
      rw [hs, List.cons_append] at h
      exact ih (k / 10) (by omega) (by omega) s (by rw [hs, (List.cons.inj h).1])

/-- The digits of a number are read to their end. -/
theorem Numeral.readWhole_toDigits (k : Nat) :
    Numeral.readWhole (Nat.toDigits 10 k) = some (Numeral.values (Nat.toDigits 10 k), []) := by
  rcases Nat.eq_zero_or_pos k with rfl | hk
  · decide
  · have hall : ∀ c ∈ Nat.toDigits 10 k, c.isDigit = true := fun c hc => Nat.isDigit_of_mem_toDigits (by decide) (by decide) hc
    rw [Numeral.readWhole_of_ne (Numeral.toDigits_ne_zero_cons hk), Text.spanDigits_of_all hall, if_neg]
    exact fun hempty => Nat.toDigits_ne_nil (List.isEmpty_iff.1 hempty)

/-- The digits of a number have its value. -/
theorem Text.valueOf_toDigits (k : Nat) : Text.valueOf 10 (Numeral.values (Nat.toDigits 10 k)) = k := by
  rw [Text.valueOf, Numeral.values, List.foldl_map]
  exact Nat.ofDigitChars_ten_toDigits

/-- A whole number is read as the digits that are written for it, with its sign. -/
theorem Numeral.read_writeInt (n : Int) : Numeral.read (Json.writeInt n) =
    some (⟨decide (n < 0), Numeral.values (Nat.toDigits 10 n.natAbs), [], none⟩, []) := by
  refine Numeral.read_eq_some_iff.2 ⟨Nat.toDigits 10 n.natAbs, [], [], ?_, Numeral.readWhole_toDigits _, rfl, rfl⟩
  unfold Json.writeInt
  split
  · rename_i hn
    exact .inl ⟨decide_eq_true hn, rfl⟩
  · rename_i hn
    refine .inr ⟨decide_eq_false hn, rfl, fun s hs => ?_⟩
    have hminus : '-' ∈ Nat.toDigits 10 n.natAbs := by rw [hs]; exact List.mem_cons_self
    exact absurd (Nat.isDigit_of_mem_toDigits (by decide) (by decide) hminus) (by decide)

/-- A whole number of 64 bits is read as it was written. -/
theorem Json.Number.readsBack_whole (n : Int) (fits : -0x8000000000000000 ≤ n ∧ n < 0x10000000000000000) :
    (Json.Number.whole n fits).ReadsBack := by
  refine Json.Number.readsBack_of_read (Numeral.read_writeInt n) ?_
  have hvalue : (if decide (n < 0) = true then -(n.natAbs : Int) else n.natAbs) = n := by
    split
    · rename_i hn
      have := of_decide_eq_true hn
      omega
    · rename_i hn
      have := of_decide_eq_false (Bool.eq_false_iff.2 hn)
      omega
  have hsign : decide (n < 0) = false ∨ n.natAbs ≠ 0 := by
    rcases Int.lt_or_le n 0 with hn | hn
    · exact .inr (by omega)
    · exact .inl (decide_eq_false (by omega))
  unfold Numeral.toNumber?
  simp only [Text.valueOf_toDigits, hvalue, dif_pos fits, hsign, and_self, if_true]

/-! ### Floats -/

/-- What is written for a positive decimal has a point or an exponent. -/
theorem Decimal.mem_write (d : Decimal) : '.' ∈ d.write ∨ 'e' ∈ d.write := by
  unfold Decimal.write
  dsimp only
  split
  · left
    split <;> simp
  · split
    · left
      simp
    · right
      simp

/-- What is written for a double has a point or an exponent. -/
theorem Double.mem_write (x : Double) : '.' ∈ x.write ∨ 'e' ∈ x.write := by
  have hmagnitude : ∀ c : Char, c ∈ (if x.isZero then ['0', '.', '0'] else x.shortest.write) → c ∈ x.write := by
    intro c hc
    unfold Double.write
    dsimp only
    split
    · exact List.mem_cons_of_mem _ hc
    · exact hc
  split at hmagnitude
  · exact .inl (hmagnitude '.' (by decide))
  · exact x.shortest.mem_write.imp (hmagnitude '.') (hmagnitude 'e')

/-- A whole part that is all of its text is a run of digits. -/
theorem Numeral.all_isDigit_of_readWhole {s : List Char} {digits : List Nat} (h : Numeral.readWhole s = some (digits, [])) :
    ∀ c ∈ s, c.isDigit = true := by
  by_cases hzero : ∃ s₁, s = '0' :: s₁
  · obtain ⟨s₁, rfl⟩ := hzero
    rw [Numeral.readWhole] at h
    split at h
    · nomatch h
    · cases h
      intro c hc
      rw [List.mem_singleton.1 hc]
      rfl
  · rw [Numeral.readWhole_of_ne fun s₁ hs => hzero ⟨s₁, hs⟩] at h
    split at h
    · nomatch h
    · have hend : s.dropWhile Char.isDigit = [] := (Prod.mk.inj (Option.some.inj h)).2
      exact List.dropWhile_eq_nil_iff.1 hend

/-- Where there are no digits after a point, nothing is taken for them. -/
theorem Numeral.eq_of_readFraction {s s' : List Char} (h : Numeral.readFraction s = some ([], s')) : s' = s := by
  by_cases hpoint : ∃ s₁, s = '.' :: s₁
  · obtain ⟨s₁, rfl⟩ := hpoint
    rw [Numeral.readFraction_point] at h
    split at h
    · nomatch h
    · rename_i hdigits
      have hnil : Numeral.values (Text.spanDigits s₁).1 = [] := (Prod.mk.inj (Option.some.inj h)).1
      exact absurd (List.isEmpty_iff.2 (List.map_eq_nil_iff.1 hnil)) hdigits
  · rw [Numeral.readFraction_of_ne fun s₁ hs => hpoint ⟨s₁, hs⟩] at h
    cases h
    rfl

/-- Where there is no exponent, nothing is taken for it. -/
theorem Numeral.eq_of_readExponent {s s' : List Char} (h : Numeral.readExponent s = some (none, s')) : s' = s := by
  cases s with
  | nil =>
    cases h
    rfl
  | cons c s =>
    by_cases hmark : c = 'e' ∨ c = 'E'
    · rw [Numeral.readExponent_mark hmark] at h
      split at h
      · nomatch h
      · nomatch (Prod.mk.inj (Option.some.inj h)).1
    · rw [Numeral.readExponent, if_neg hmark] at h
      cases h
      rfl

/-- A numeral with a point or an exponent's mark in its text has digits after the point or an exponent. -/
theorem Numeral.exists_part_of_mem {s : List Char} {n : Numeral} (h : Numeral.read s = some (n, [])) (hs : '.' ∈ s ∨ 'e' ∈ s) :
    ¬ (n.fraction = [] ∧ n.exponent = none) := by
  rintro ⟨hfraction, hexponent⟩
  obtain ⟨s₀, s₁, s₂, hsign, hwhole, hread, hreadExponent⟩ := Numeral.read_eq_some_iff.1 h
  rw [hfraction] at hread
  rw [hexponent] at hreadExponent
  have hend : s₁ = [] := by rw [← Numeral.eq_of_readFraction hread, ← Numeral.eq_of_readExponent hreadExponent]
  rw [hend] at hwhole
  have hdigits := Numeral.all_isDigit_of_readWhole hwhole
  have hchars : ∀ c ∈ s, c = '-' ∨ c.isDigit = true := by
    intro c hc
    rcases hsign with ⟨-, rfl⟩ | ⟨-, rfl, -⟩
    · exact (List.mem_cons.1 hc).imp id (hdigits c)
    · exact .inr (hdigits c hc)
  rcases hs with hs | hs
  · exact absurd (hchars _ hs) (by decide)
  · exact absurd (hchars _ hs) (by decide)

/-- A float whose text stands for it is read as it was written. -/
theorem Json.Number.readsBack_float {x : Double} (finite : x.isFinite = true) (h : x.ReadsBack) :
    (Json.Number.float x finite).ReadsBack := by
  obtain ⟨n, hread, hvalue⟩ := h
  refine Json.Number.readsBack_of_read hread ?_
  have hpart := Numeral.exists_part_of_mem hread x.mem_write
  have hfloat : n.toFloat? = some (.float x finite) := by
    rw [Numeral.toFloat?, hvalue, Option.bind_some, dif_pos finite]
  have hwhole : ¬ (n.fraction = [] ∧ n.exponent = none ∧ (n.negative = false ∨ Text.valueOf 10 n.whole ≠ 0)) :=
    fun h => hpart ⟨h.1, h.2.1⟩
  unfold Numeral.toNumber?
  simp only [if_neg hwhole, hfloat, dite_eq_ite, ite_self]

end WhereClause
