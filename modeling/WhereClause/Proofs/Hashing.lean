import WhereClause.Json.Echo
import WhereClause.Proofs.Sameness

/-!
# Hashing: what equal values give to a hash

Values that are equal should give a hash the same to take in. They do unless they are documents that have zeros of different
signs in the same place: equality holds the two zeros of IEEE 754 for one number, while the text of a document, which is what a
hash takes in of it, shows the sign (`Value.same_zeros_hashKey_ne`). That is the only way in which equal values can differ at all:
equal documents are identical, or else their texts part at the sign of a zero (`Json.eq_or_apartAtZero`). So equal values give a
hash the same exactly when the floats in their documents have the same signs (`Value.hashKey_eq_iff_signs`).
-/

namespace WhereClause

/-! ## Lists that part -/

/-- Two lists part: they begin alike, and then they have different entries in the same place. -/
def Diverge {α : Type} (xs ys : List α) : Prop :=
  ∃ (common : List α) (x y : α) (xs' ys' : List α), x ≠ y ∧ xs = common ++ x :: xs' ∧ ys = common ++ y :: ys'

section Diverge

variable {α : Type} {xs ys : List α}

theorem Diverge.of_ne {x y : α} (h : x ≠ y) (xs ys : List α) : Diverge (x :: xs) (y :: ys) := ⟨[], x, y, xs, ys, h, rfl, rfl⟩

theorem Diverge.ne (h : Diverge xs ys) : xs ≠ ys := by
  obtain ⟨common, x, y, xs', ys', hne, rfl, rfl⟩ := h
  intro heq
  exact hne (List.cons.inj (List.append_cancel_left heq)).1

theorem Diverge.append_left (h : Diverge xs ys) (before : List α) : Diverge (before ++ xs) (before ++ ys) := by
  obtain ⟨common, x, y, xs', ys', hne, rfl, rfl⟩ := h
  exact ⟨before ++ common, x, y, xs', ys', hne, (List.append_assoc _ _ _).symm, (List.append_assoc _ _ _).symm⟩

theorem Diverge.append_right (h : Diverge xs ys) (after after' : List α) : Diverge (xs ++ after) (ys ++ after') := by
  obtain ⟨common, x, y, xs', ys', hne, rfl, rfl⟩ := h
  exact ⟨common, x, y, xs' ++ after, ys' ++ after', hne, List.append_assoc _ _ _, List.append_assoc _ _ _⟩

end Diverge

/-! ## The two zeros -/

/-- Zeros of the same sign are the same zero. -/
theorem Double.eq_of_isZero {x y : Double} (hx : x.isZero = true) (hy : y.isZero = true)
    (hsign : x.isNegative = y.isNegative) : x = y := by
  obtain ⟨b⟩ := x
  obtain ⟨c⟩ := y
  have hb := b.toNat_lt
  have hc := c.toNat_lt
  simp only [Double.isZero, Double.exponentField, Double.fractionField, Bool.and_eq_true, beq_iff_eq] at hx hy
  simp only [Double.isNegative, decide_eq_decide] at hsign
  have hbits : b.toNat = c.toNat := by omega
  rw [UInt64.toNat_inj.1 hbits]

/-- Doubles that are the same are identical, or zeros of different signs. -/
theorem Double.eq_or_zeros_of_same {x y : Double} (h : x.same y = true) :
    x = y ∨ x.isZero = true ∧ y.isZero = true ∧ x.isNegative ≠ y.isNegative := by
  simp only [Double.same, Bool.and_eq_true, Bool.or_eq_true, beq_iff_eq] at h
  by_cases heq : x = y
  · exact .inl heq
  · obtain ⟨hx, hy⟩ := h.2.resolve_left heq
    exact .inr ⟨hx, hy, fun hsign => heq (Double.eq_of_isZero hx hy hsign)⟩

/-- A zero is written with its sign. -/
theorem Double.write_of_isZero {x : Double} (h : x.isZero = true) :
    x.write = if x.isNegative then ['-', '0', '.', '0'] else ['0', '.', '0'] := by
  simp only [Double.write, h, if_true]

/-- Zeros of different signs are written as texts that part. -/
theorem Double.diverge_write {x y : Double} (hx : x.isZero = true) (hy : y.isZero = true)
    (hsign : x.isNegative ≠ y.isNegative) : Diverge x.write y.write := by
  rw [Double.write_of_isZero hx, Double.write_of_isZero hy]
  cases hneg : x.isNegative with
  | true =>
    have hpos : y.isNegative = false := by simpa [hneg] using hsign
    rw [hpos]
    exact .of_ne (by decide) _ _
  | false =>
    have hpos : y.isNegative = true := by simpa [hneg] using hsign
    rw [hpos]
    exact .of_ne (by decide) _ _

/-! ## Documents -/

/-- Two written values, with their floats, are told apart at a zero: their texts part, the signs of their floats part, and one of
them has the zero whose sign is written. -/
structure Json.ApartAtZero (text text' : List Char) (floats floats' : List Double) : Prop where
  texts : Diverge text text'
  signs : Diverge (floats.map Double.isNegative) (floats'.map Double.isNegative)
  zero : ∃ x ∈ floats ++ floats', x.isZero = true ∧ x.isNegative = true

section ApartAtZero

variable {text text' : List Char} {floats floats' : List Double}

theorem Json.ApartAtZero.append_left (h : Json.ApartAtZero text text' floats floats') (before : List Char)
    (others : List Double) : Json.ApartAtZero (before ++ text) (before ++ text') (others ++ floats) (others ++ floats') := by
  refine ⟨h.texts.append_left before, ?_, ?_⟩
  · rw [List.map_append, List.map_append]
    exact h.signs.append_left _
  · obtain ⟨x, hx, hzero⟩ := h.zero
    refine ⟨x, ?_, hzero⟩
    simp only [List.mem_append] at hx ⊢
    rcases hx with hx | hx
    · exact .inl (.inr hx)
    · exact .inr (.inr hx)

theorem Json.ApartAtZero.append_right (h : Json.ApartAtZero text text' floats floats') (after after' : List Char)
    (others others' : List Double) :
    Json.ApartAtZero (text ++ after) (text' ++ after') (floats ++ others) (floats' ++ others') := by
  refine ⟨h.texts.append_right after after', ?_, ?_⟩
  · rw [List.map_append, List.map_append]
    exact h.signs.append_right _ _
  · obtain ⟨x, hx, hzero⟩ := h.zero
    refine ⟨x, ?_, hzero⟩
    simp only [List.mem_append] at hx ⊢
    rcases hx with hx | hx
    · exact .inl (.inl hx)
    · exact .inr (.inl hx)

end ApartAtZero

/-- JSON numbers that are the same are identical, or told apart at a zero. -/
theorem Json.Number.eq_or_apartAtZero {n m : Json.Number} (h : n.same m = true) :
    n = m ∨ Json.ApartAtZero n.write m.write (Json.number n).floats (Json.number m).floats := by
  cases n with
  | whole n fits =>
    cases m with
    | whole m fits' =>
      obtain rfl : n = m := beq_iff_eq.1 h
      exact .inl rfl
    | float y finite => nomatch h
  | float x finite =>
    cases m with
    | whole m fits => nomatch h
    | float y finite' =>
      rcases Double.eq_or_zeros_of_same h with rfl | ⟨hx, hy, hsign⟩
      · exact .inl rfl
      · refine .inr ⟨Double.diverge_write hx hy hsign, .of_ne hsign _ _, ?_⟩
        cases hneg : x.isNegative with
        | true => exact ⟨x, .head _, hx, hneg⟩
        | false => exact ⟨y, .tail _ (.head _), hy, by simpa [hneg] using hsign⟩

/-- A value and what comes after it, each identical to its counterpart or told apart at a zero, are so together. -/
theorem Json.ApartAtZero.both {α : Type} {write : α → List Char} {floats : α → List Double} {x y : Json} {rest rest' : α}
    (hx : x = y ∨ Json.ApartAtZero x.write y.write x.floats y.floats)
    (hrest : rest = rest' ∨ Json.ApartAtZero (write rest) (write rest') (floats rest) (floats rest')) (before : List Char) :
    (x = y ∧ rest = rest') ∨
      Json.ApartAtZero (before ++ (x.write ++ write rest)) (before ++ (y.write ++ write rest'))
        (x.floats ++ floats rest) (y.floats ++ floats rest') := by
  rcases hx with rfl | hx
  · rcases hrest with rfl | hrest
    · exact .inl ⟨rfl, rfl⟩
    · exact .inr ((hrest.append_left x.write x.floats).append_left before [])
  · exact .inr ((hx.append_right _ _ _ _).append_left before [])

mutual

/-- JSON values that are the same are identical, or told apart at a zero. -/
theorem Json.eq_or_apartAtZero : ∀ {j k : Json}, j.same k = true →
    j = k ∨ Json.ApartAtZero j.write k.write j.floats k.floats
  | .null, k, h => by
    cases k with
    | null => exact .inl rfl
    | _ => nomatch h
  | .bool b, k, h => by
    cases k with
    | bool c => exact .inl (congrArg Json.bool (beq_iff_eq.1 h))
    | _ => nomatch h
  | .number n, k, h => by
    cases k with
    | number m =>
      rcases Json.Number.eq_or_apartAtZero h with rfl | hapart
      · exact .inl rfl
      · exact .inr hapart
    | _ => nomatch h
  | .string s, k, h => by
    cases k with
    | string t => exact .inl (congrArg Json.string (beq_iff_eq.1 h))
    | _ => nomatch h
  | .array [], k, h => by
    cases k with
    | array others =>
      cases others with
      | nil => exact .inl rfl
      | cons y ys => nomatch h
    | _ => nomatch h
  | .array (x :: xs), k, h => by
    cases k with
    | array others =>
      cases others with
      | nil => nomatch h
      | cons y ys =>
        obtain ⟨hx, hxs⟩ := Bool.and_eq_true_iff.1 h
        rcases Json.ApartAtZero.both (Json.eq_or_apartAtZero hx) (Json.eq_or_apartAtZero_items hxs) ['['] with
          ⟨rfl, rfl⟩ | hapart
        · exact .inl rfl
        · exact .inr hapart
    | _ => nomatch h
  | .object [], k, h => by
    cases k with
    | object others =>
      cases others with
      | nil => exact .inl rfl
      | cons f fs => nomatch h
    | _ => nomatch h
  | .object ((n, x) :: es), k, h => by
    cases k with
    | object others =>
      cases others with
      | nil => nomatch h
      | cons f fs =>
        obtain ⟨m, y⟩ := f
        obtain ⟨hhead, hes⟩ := Bool.and_eq_true_iff.1 h
        obtain ⟨hname, hx⟩ := Bool.and_eq_true_iff.1 hhead
        obtain rfl : n = m := beq_iff_eq.1 hname
        rcases Json.ApartAtZero.both (Json.eq_or_apartAtZero hx) (Json.eq_or_apartAtZero_entries hes)
          ('\x7b' :: Json.writeString n ++ [':']) with ⟨rfl, rfl⟩ | hapart
        · exact .inl rfl
        · right
          simpa only [Json.write, Json.floats, Json.floatsOfEntries, List.append_assoc, List.cons_append, List.nil_append] using
            hapart
    | _ => nomatch h

theorem Json.eq_or_apartAtZero_items : ∀ {xs ys : List Json}, Json.sameItems xs ys = true →
    xs = ys ∨ Json.ApartAtZero (Json.writeItems xs) (Json.writeItems ys) (Json.floatsOf xs) (Json.floatsOf ys)
  | [], [], _ => .inl rfl
  | [], _ :: _, h => nomatch h
  | _ :: _, [], h => nomatch h
  | x :: xs, y :: ys, h => by
    obtain ⟨hx, hxs⟩ := Bool.and_eq_true_iff.1 h
    rcases Json.ApartAtZero.both (Json.eq_or_apartAtZero hx) (Json.eq_or_apartAtZero_items hxs) [','] with
      ⟨rfl, rfl⟩ | hapart
    · exact .inl rfl
    · exact .inr hapart

theorem Json.eq_or_apartAtZero_entries : ∀ {es fs : List (String × Json)}, Json.sameEntries es fs = true →
    es = fs ∨
      Json.ApartAtZero (Json.writeEntries es) (Json.writeEntries fs) (Json.floatsOfEntries es) (Json.floatsOfEntries fs)
  | [], [], _ => .inl rfl
  | [], _ :: _, h => nomatch h
  | _ :: _, [], h => nomatch h
  | (n, x) :: es, (m, y) :: fs, h => by
    obtain ⟨hhead, hes⟩ := Bool.and_eq_true_iff.1 h
    obtain ⟨hname, hx⟩ := Bool.and_eq_true_iff.1 hhead
    obtain rfl : n = m := beq_iff_eq.1 hname
    rcases Json.ApartAtZero.both (Json.eq_or_apartAtZero hx) (Json.eq_or_apartAtZero_entries hes)
      (',' :: Json.writeString n ++ [':']) with ⟨rfl, rfl⟩ | hapart
    · exact .inl rfl
    · right
      simpa only [Json.writeEntries, Json.floatsOfEntries, List.append_assoc, List.cons_append, List.nil_append] using hapart

end

/-- Written texts that part are different texts. -/
theorem Json.ApartAtZero.text_ne {j k : Json} (h : Json.ApartAtZero j.write k.write j.floats k.floats) : j.text ≠ k.text :=
  fun htext => h.texts.ne (String.ofList_injective htext)

/-! ## Values -/

/-- The floats in the document that a value is; no others count, since a value that is a float is equal by its bits. -/
def Value.documentFloats : Value → List Double
  | .json d => d.tree.floats
  | _ => []

/-- Whether a value is a document that has the zero whose sign is written. -/
def Value.hasNegativeZero (v : Value) : Bool := v.documentFloats.any fun x => x.isZero && x.isNegative

/-- Values that are the same are identical, or documents told apart at a zero. -/
theorem Value.eq_or_apartAtZero_of_same {v w : Value} (h : v.same w = true) :
    v = w ∨ ∃ d e : Document, v = .json d ∧ w = .json e ∧
      Json.ApartAtZero d.tree.write e.tree.write d.tree.floats e.tree.floats := by
  rcases Value.eq_or_documents_of_same h with rfl | ⟨⟨tree, sorted⟩, ⟨tree', sorted'⟩, rfl, rfl, hsame⟩
  · exact .inl rfl
  · rcases Json.eq_or_apartAtZero hsame with htree | hapart
    · dsimp only at htree
      subst htree
      exact .inl rfl
    · exact .inr ⟨_, _, rfl, rfl, hapart⟩

/-- Documents told apart at a zero have, one of them, the zero whose sign is written. -/
theorem Value.hasNegativeZero_of_apartAtZero {d e : Document}
    (h : Json.ApartAtZero d.tree.write e.tree.write d.tree.floats e.tree.floats) :
    (Value.json d).hasNegativeZero = true ∨ (Value.json e).hasNegativeZero = true := by
  obtain ⟨x, hx, hzero, hnegative⟩ := h.zero
  have hboth : (x.isZero && x.isNegative) = true := by rw [hzero, hnegative, Bool.and_self]
  rcases List.mem_append.1 hx with hx | hx
  · exact .inl (List.any_eq_true.2 ⟨x, hx, hboth⟩)
  · exact .inr (List.any_eq_true.2 ⟨x, hx, hboth⟩)

/-- Values that are the same are identical, if neither is a document with the zero whose sign is written. -/
theorem Value.eq_of_same {v w : Value} (h : v.same w = true) (hv : v.hasNegativeZero = false)
    (hw : w.hasNegativeZero = false) : v = w := by
  rcases Value.eq_or_apartAtZero_of_same h with heq | ⟨d, e, rfl, rfl, hapart⟩
  · exact heq
  · rcases Value.hasNegativeZero_of_apartAtZero hapart with hzero | hzero
    · rw [hv] at hzero
      nomatch hzero
    · rw [hw] at hzero
      nomatch hzero

/-- Values that are the same give a hash the same to take in exactly when the floats in the documents that they are have the same
signs, in the same order. So they do wherever neither is a document with the zero whose sign is written. -/
theorem Value.hashKey_eq_iff_signs {v w : Value} (h : v.same w = true) :
    (v.hashKey = w.hashKey ↔ v.documentFloats.map Double.isNegative = w.documentFloats.map Double.isNegative) ∧
    (v.hasNegativeZero = false → w.hasNegativeZero = false → v.hashKey = w.hashKey) := by
  refine ⟨?_, fun hv hw => congrArg Value.hashKey (Value.eq_of_same h hv hw)⟩
  rcases Value.eq_or_apartAtZero_of_same h with rfl | ⟨d, e, rfl, rfl, hapart⟩
  · exact ⟨fun _ => rfl, fun _ => rfl⟩
  · constructor
    · intro hkey
      exact absurd (Value.HashKey.jsonText.inj hkey) hapart.text_ne
    · intro hsigns
      exact absurd hsigns hapart.signs.ne

/-- Two zeros in an array, of one sign and the other: turned about, they make the same value, which is as many zeros of either
sign. A hash tells the two arrays apart all the same, since the signs stand in another order. -/
theorem Value.hashKey_eq_iff_signs_turned :
    let zero : Json := .number (.float Double.zero (by decide))
    let negated : Json := .number (.float Double.zero.negate (by decide))
    let v : Value := .json (.ofJson (.object [("b", .array [zero, negated]), ("a", .null)]))
    let w : Value := .json (.ofJson (.object [("a", .null), ("b", .array [negated, zero])]))
    v.same w = true ∧
      (v.hashKey = w.hashKey ↔ v.documentFloats.map Double.isNegative = w.documentFloats.map Double.isNegative) ∧
      v.hashKey ≠ w.hashKey := by
  intro zero negated v w
  have hsame : v.same w = true := by decide +kernel
  have hiff := (Value.hashKey_eq_iff_signs hsame).1
  refine ⟨hsame, hiff, fun hkey => ?_⟩
  have hsigns : v.documentFloats.map Double.isNegative ≠ w.documentFloats.map Double.isNegative := by decide +kernel
  exact hsigns (hiff.1 hkey)

/-- The two zeros as documents are the same value, and a hash takes in the texts `0.0` and `-0.0`. -/
theorem Value.same_zeros_hashKey_ne :
    let zero : Value := .json ⟨.number (.float Double.zero (by decide)), rfl⟩
    let negated : Value := .json ⟨.number (.float Double.zero.negate (by decide)), rfl⟩
    zero.same negated = true ∧ zero.hashKey = .jsonText "0.0" ∧ negated.hashKey = .jsonText "-0.0" ∧
      zero.hashKey ≠ negated.hashKey := by
  decide +kernel

end WhereClause
