import BuildAtlas.Text.Range

/-!
# BuildAtlas.Text.Blank

Blank characters, and what is cut by them: trimming, words, blank texts.

A character is blank exactly when it has Unicode's `White_Space` property, so a no-break space or
an ideographic space is trimmed like an ordinary one. `isBlank_of_isWhitespace` ties the table to
the smaller class that core knows.
-/

namespace BuildAtlas.Text

/-- The code point ranges of Unicode's `White_Space` property, both ends included. -/
def blankRanges : List (Nat × Nat) :=
  [(0x09, 0x0D), (0x20, 0x20), (0x85, 0x85), (0xA0, 0xA0), (0x1680, 0x1680), (0x2000, 0x200A),
   (0x2028, 0x2029), (0x202F, 0x202F), (0x205F, 0x205F), (0x3000, 0x3000)]

/-- Does the character have the `White_Space` property? -/
def isBlank (c : Char) : Bool :=
  isWithin blankRanges c

theorem isBlank_of_isWhitespace {c : Char} (h : c.isWhitespace = true) : isBlank c = true := by
  simp only [Char.isWhitespace, Bool.or_eq_true, decide_eq_true_eq] at h
  rcases h with ((rfl | rfl) | rfl) | rfl <;> decide

/-! ### Trimming -/

/-- Drops the longest end whose elements all satisfy `p`. -/
def dropEndWhile {α : Type} (p : α → Bool) (xs : List α) : List α :=
  (xs.reverse.dropWhile p).reverse

/-- Drops the elements satisfying `p` at both ends. -/
def trimWhere {α : Type} (p : α → Bool) (xs : List α) : List α :=
  dropEndWhile p (xs.dropWhile p)

/-- The text without characters satisfying `p` at its ends. -/
def trimMatches (p : Char → Bool) (s : String) : String :=
  .ofList (trimWhere p s.toList)

/-- The text without blank characters at its ends. -/
def trim (s : String) : String :=
  trimMatches isBlank s

/-- Does the text hold nothing but blank characters? -/
def isBlankText (s : String) : Bool :=
  s.toList.all isBlank

/-! ### Words -/

/-- The maximal runs of characters that are not blank. -/
def words (s : String) : List String :=
  ((s.toList.splitOnP isBlank).filter (!·.isEmpty)).map .ofList

end BuildAtlas.Text
