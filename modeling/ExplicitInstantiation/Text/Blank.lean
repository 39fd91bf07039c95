import ExplicitInstantiation.Text.Basic
import ExplicitInstantiation.Text.CharRanges

/-!
# Blanks

A blank is a character with the Unicode property White_Space. Blanks separate words, and a text is
trimmed by dropping the blanks at its ends.
-/

namespace ExplicitInstantiation

/-- The code points with the property White_Space. -/
def blankRanges : CharRanges := [
  (0x9, 0xD), (0x20, 0x20), (0x85, 0x85), (0xA0, 0xA0), (0x1680, 0x1680), (0x2000, 0x200A),
  (0x2028, 0x2029), (0x202F, 0x202F), (0x205F, 0x205F), (0x3000, 0x3000)]

/-- Whether `c` is a blank. -/
def isBlank (c : Char) : Bool :=
  blankRanges.contains c

namespace Text

/-- The text without the blanks it starts with. -/
def trimStart (t : Text) : Text :=
  t.dropWhile isBlank

/-- The text without the blanks it ends with. -/
def trimEnd (t : Text) : Text :=
  t.dropEndWhile isBlank

/-- The text without the blanks at its ends. -/
def trim (t : Text) : Text :=
  t.trimStart.trimEnd

/-- Whether the text consists of blanks only. -/
def allBlank (t : Text) : Bool :=
  t.all isBlank

/-- The maximal runs of characters that are not blank, in order. -/
def words (t : Text) : List Text :=
  (t.splitOnP isBlank).filter fun word => !word.isEmpty

/-- The empty text has no words. -/
@[simp] theorem words_nil : words [] = [] := rfl

/-- No word is empty. -/
theorem ne_nil_of_mem_words {t word : Text} (h : word ∈ words t) : word ≠ [] := by
  simpa using (List.mem_filter.mp h).2

end Text

end ExplicitInstantiation
