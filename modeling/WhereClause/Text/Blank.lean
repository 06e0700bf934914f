/-!
# Blank: white space as Unicode has it, trimming, and the words of a text

Names of entities, operator codes and names of column types are read with the white space around them ignored, and the words of
a type name are what stands between white space. White space is the Unicode property of that name: 25 code points, which adds
the no-break space, the ideographic space, the line separators and others to the blanks and line ends of ASCII, and leaves out
the zero-width ones.
-/

namespace WhereClause

/-- The closed ranges of code points with the Unicode property White_Space, in rising order. -/
def Text.blankRanges : List (Nat × Nat) :=
  [(0x9, 0xD), (0x20, 0x20), (0x85, 0x85), (0xA0, 0xA0), (0x1680, 0x1680), (0x2000, 0x200A), (0x2028, 0x2029), (0x202F, 0x202F),
   (0x205F, 0x205F), (0x3000, 0x3000)]

/-- Whether a number lies in one of the closed ranges. -/
def Text.inRanges (ranges : List (Nat × Nat)) (n : Nat) : Bool :=
  ranges.any fun r => decide (r.1 ≤ n) && decide (n ≤ r.2)

/-- Whether a character is white space. -/
def Text.isBlank (c : Char) : Bool := Text.inRanges Text.blankRanges c.toNat

/-- A text without the white space it starts with. -/
def Text.trimLeft (s : List Char) : List Char := s.dropWhile Text.isBlank

/-- A text without the white space it starts and ends with. -/
def Text.trim (s : List Char) : List Char := (Text.trimLeft (Text.trimLeft s).reverse).reverse

/-- The words of a text: the longest runs of characters that are not white space, in order. -/
def Text.words : List Char → List (List Char)
  | [] => []
  | c :: rest =>
    if Text.isBlank c then Text.words rest
    else
      match rest, Text.words rest with
      | d :: _, word :: more => if Text.isBlank d then [c] :: word :: more else (c :: word) :: more
      | _, more => [c] :: more

/-! ## Where words begin and end -/

/-- White space at the start of a text belongs to no word. -/
theorem Text.words_cons_blank {c : Char} (hc : Text.isBlank c = true) (s : List Char) :
    Text.words (c :: s) = Text.words s := by
  simp [Text.words, hc]

/-- A character before white space, or at the end, is a word of its own. -/
theorem Text.words_cons_end {c : Char} (hc : Text.isBlank c = false) {s : List Char}
    (hs : ∀ d, s.head? = some d → Text.isBlank d = true) : Text.words (c :: s) = [c] :: Text.words s := by
  cases s with
  | nil => simp [Text.words, hc]
  | cons d rest =>
    have hd := hs d rfl
    rw [Text.words.eq_def]
    simp only [hc, Text.words_cons_blank hd, Bool.false_eq_true, if_false]
    cases Text.words rest with
    | nil => rfl
    | cons word more => exact if_pos hd

/-- A character before a word is the first of that word. -/
theorem Text.words_cons_letter {c d : Char} (hc : Text.isBlank c = false) (hd : Text.isBlank d = false) (s : List Char) :
    ∃ word more, Text.words (d :: s) = word :: more ∧ Text.words (c :: d :: s) = (c :: word) :: more := by
  have hword : ∃ word more, Text.words (d :: s) = word :: more := by
    rw [Text.words.eq_def]
    simp only [hd, Bool.false_eq_true, if_false]
    split
    · split
      · exact ⟨_, _, rfl⟩
      · exact ⟨_, _, rfl⟩
    · exact ⟨_, _, rfl⟩
  obtain ⟨word, more, h⟩ := hword
  refine ⟨word, more, h, ?_⟩
  rw [Text.words.eq_def]
  simp only [hc, hd, h, Bool.false_eq_true, if_false]

/-- Where white space stands, the words before it end and those after it begin. -/
theorem Text.words_append_blank {c : Char} (hc : Text.isBlank c = true) (s t : List Char) :
    Text.words (s ++ c :: t) = Text.words s ++ Text.words t := by
  induction s with
  | nil => exact Text.words_cons_blank hc t
  | cons a s ih =>
    cases ha : Text.isBlank a with
    | true => rw [List.cons_append, Text.words_cons_blank ha, Text.words_cons_blank ha, ih]
    | false =>
      cases s with
      | nil =>
        have hend : Text.words [a] = [[a]] := Text.words_cons_end ha nofun
        have hnext : Text.words (a :: c :: t) = [a] :: Text.words (c :: t) := Text.words_cons_end ha fun d hd => by
          cases hd
          exact hc
        rw [hend, List.singleton_append, hnext, Text.words_cons_blank hc]
        rfl
      | cons b s =>
        cases hb : Text.isBlank b with
        | true =>
          have hnext : ∀ r : List Char, Text.words (a :: b :: r) = [a] :: Text.words (b :: r) := fun r =>
            Text.words_cons_end ha fun d hd => by
              cases hd
              exact hb
          rw [List.cons_append, List.cons_append, hnext, hnext, ← List.cons_append, ih, List.cons_append]
        | false =>
          obtain ⟨word, more, h, hcons⟩ := Text.words_cons_letter ha hb s
          obtain ⟨word', more', h', hcons'⟩ := Text.words_cons_letter ha hb (s ++ c :: t)
          rw [List.cons_append, h', h, List.cons_append] at ih
          obtain ⟨rfl, rfl⟩ := List.cons.inj ih
          rw [List.cons_append, List.cons_append, hcons', hcons, List.cons_append]

/-- No word runs over from one text to the next: there is white space on one side of where they meet. -/
def Text.Apart (s t : List Char) : Prop :=
  ∀ c d, s.getLast? = some c → t.head? = some d → Text.isBlank c = true ∨ Text.isBlank d = true

/-- The words of two texts that are apart are those of the one and then those of the other. -/
theorem Text.words_append {s t : List Char} (h : Text.Apart s t) : Text.words (s ++ t) = Text.words s ++ Text.words t := by
  rcases List.eq_nil_or_concat s with rfl | ⟨s, c, rfl⟩
  · rfl
  · cases t with
    | nil => rw [List.append_nil, Text.words, List.append_nil]
    | cons d t =>
      rcases h c d (by simp) rfl with hc | hd
      · rw [List.concat_eq_append, List.append_assoc, List.singleton_append, Text.words_append_blank hc,
          Text.words_append_blank hc, Text.words, List.append_nil]
      · rw [Text.words_append_blank hd, Text.words_cons_blank hd]

/-- A change of characters that keeps white space and makes none keeps where the words are. -/
theorem Text.words_map {f : Char → Char} (hf : ∀ c, Text.isBlank (f c) = Text.isBlank c) (s : List Char) :
    Text.words (s.map f) = (Text.words s).map (List.map f) := by
  induction s with
  | nil => rfl
  | cons c s ih =>
    rw [List.map_cons]
    cases hc : Text.isBlank c with
    | true => rw [Text.words_cons_blank hc, Text.words_cons_blank ((hf c).trans hc), ih]
    | false =>
      have hc' := (hf c).trans hc
      cases s with
      | nil =>
        have hnil : ∀ d : Char, ([] : List Char).head? = some d → Text.isBlank d = true := fun _ h => nomatch h
        rw [Text.words_cons_end hc hnil, List.map_nil, Text.words_cons_end hc' hnil]
        rfl
      | cons d s =>
        rw [List.map_cons] at ih ⊢
        cases hd : Text.isBlank d with
        | true =>
          rw [Text.words_cons_end hc fun e he => ?_, Text.words_cons_end hc' fun e he => ?_, ih]
          · rfl
          · cases he
            exact (hf d).trans hd
          · cases he
            exact hd
        | false =>
          obtain ⟨word, more, h, hcons⟩ := Text.words_cons_letter hc hd s
          obtain ⟨word', more', h', hcons'⟩ := Text.words_cons_letter hc' ((hf d).trans hd) (s.map f)
          rw [h', h, List.map_cons] at ih
          obtain ⟨rfl, rfl⟩ := List.cons.inj ih
          rw [hcons', hcons, List.map_cons, List.map_cons]

/-- White space between two texts that are apart adds no word and parts none. -/
theorem Text.words_append_blanks {s t w : List Char} (h : Text.Apart s t) (hw : ∀ c ∈ w, Text.isBlank c = true) :
    Text.words (s ++ (w ++ t)) = Text.words (s ++ t) := by
  have hskip : Text.words (w ++ t) = Text.words t := by
    clear h
    induction w with
    | nil => rfl
    | cons c w ih =>
      rw [List.cons_append, Text.words_cons_blank (hw c (by simp))]
      exact ih fun d hd => hw d (List.mem_cons_of_mem c hd)
  cases w with
  | nil => rfl
  | cons c w =>
    have hapart : Text.Apart s (c :: w ++ t) := by
      intro a d _ hd
      cases hd
      exact .inr (hw c (by simp))
    rw [Text.words_append hapart, Text.words_append h, hskip]

end WhereClause
