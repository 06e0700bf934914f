/-!
# Capital: the upper-case form of a text, as far as it is ASCII

Column types are found by the upper-case form of their name. Upper-casing in full takes one character to one, two or three, and
a few characters outside ASCII have an upper-case form that is ASCII letters only: the dotless i, the long s, the sharp s and
the Latin ligatures. Those are here beside the letters `a` to `z`. Every other character stands for itself: its upper-case form
is not ASCII, and the names that are compared with the result are ASCII throughout, so that which other character it is makes
no difference to any comparison.
-/

namespace WhereClause

/-- The characters outside ASCII whose upper-case form is made of ASCII letters, with that form. -/
def Text.asciiCapitals : List (Char × List Char) :=
  [('\u00DF', ['S', 'S']), ('\u0131', ['I']), ('\u017F', ['S']), ('\uFB00', ['F', 'F']), ('\uFB01', ['F', 'I']),
   ('\uFB02', ['F', 'L']), ('\uFB03', ['F', 'F', 'I']), ('\uFB04', ['F', 'F', 'L']), ('\uFB05', ['S', 'T']),
   ('\uFB06', ['S', 'T'])]

/-- The upper-case form of a character where that is ASCII, and the character itself where it is not. -/
def Text.capital (c : Char) : List Char :=
  if c.toNat < 128 then [c.toUpper] else (Text.asciiCapitals.lookup c).getD [c]

/-- A text with each character replaced by its upper-case form. -/
def Text.capitals (s : List Char) : List Char := s.flatMap Text.capital

theorem Text.capitals_append (s t : List Char) : Text.capitals (s ++ t) = Text.capitals s ++ Text.capitals t := by
  simp [Text.capitals]

/-- A text with the capital letters of ASCII in it made small. -/
def Text.lower (s : List Char) : List Char := s.map Char.toLower

/-- The capital letters of ASCII. -/
def Text.capitalLetters : List Char := "ABCDEFGHIJKLMNOPQRSTUVWXYZ".toList

/-- A character is made small only if it is a capital letter of ASCII. -/
theorem Text.toLower_eq_or_mem (c : Char) : c.toLower = c ∨ c ∈ Text.capitalLetters := by
  by_cases h : 'A'.val ≤ c.val ∧ c.val ≤ 'Z'.val
  · right
    have hall : ∀ n < 91, 65 ≤ n → Char.ofNat n ∈ Text.capitalLetters := by decide
    have hfrom : 65 ≤ c.toNat := h.1
    have hto : c.toNat ≤ 90 := h.2
    rw [← Char.ofNat_toNat c]
    exact hall c.toNat (by omega) hfrom
  · left
    exact dif_neg h

/-- What is the same of each capital letter of ASCII and of that letter made small is the same of every character and of that
character made small. -/
theorem Text.toLower_keeps {α : Type} [BEq α] [LawfulBEq α] {f : Char → α}
    (hf : (Text.capitalLetters.all fun c => f c.toLower == f c) = true) (c : Char) : f c.toLower = f c := by
  rcases Text.toLower_eq_or_mem c with h | h
  · rw [h]
  · exact beq_iff_eq.1 (List.all_eq_true.1 hf c h)

/-- A letter in either case has the same upper-case form. -/
theorem Text.capital_toLower (c : Char) : Text.capital c.toLower = Text.capital c := Text.toLower_keeps (by decide) c

/-- Texts that differ in the case of ASCII letters alone have the same upper-case form. -/
theorem Text.capitals_lower (s : List Char) : Text.capitals (Text.lower s) = Text.capitals s := by
  rw [Text.capitals, Text.lower, List.flatMap_map]
  simp only [Text.capital_toLower]
  rfl

end WhereClause
