import ExplicitInstantiation.Text.Basic

/-!
# Positions in a YAML document

The layout of a document depends on columns, and on whether two things stand on one line. A cursor
is what is left of the document together with the position where it starts.
-/

namespace ExplicitInstantiation

namespace Yaml

/-- Whether `c` is a space or a tab. -/
def isGap (c : Char) : Bool :=
  c == ' ' || c == '\t'

/-- Whether `c` ends a line. -/
def isBreak (c : Char) : Bool :=
  c == '\n' || c == '\r' || c.toNat == 0x85 || c.toNat == 0x2028 || c.toNat == 0x2029

/-- Whether a document may contain `c`. -/
def isAllowed (c : Char) : Bool :=
  let n := c.toNat
  n == 0x9 || n == 0xA || n == 0xD || (0x20 ≤ n && n ≤ 0x7E) || n == 0x85 ||
    (0xA0 ≤ n && n != 0xFFFE && n != 0xFFFF)

/-- What is left of a document. -/
structure Cursor where
  /-- The characters that are left. -/
  rest : Text
  /-- The number of bytes before them. -/
  index : Nat
  /-- The number of lines before them. -/
  line : Nat
  /-- The number of characters before them on their line. -/
  column : Nat
  deriving Repr, DecidableEq

namespace Cursor

/-- The beginning of a document. -/
def start (content : Text) : Cursor := ⟨content, 0, 0, 0⟩

/-- The character `n` places ahead. -/
def peek? (cursor : Cursor) (n : Nat) : Option Char := (cursor.rest.drop n).head?

/-- Whether the character `n` places ahead is `c`. -/
def isAt (cursor : Cursor) (n : Nat) (c : Char) : Bool := cursor.peek? n == some c

/-- Whether a gap, a line break or the end is `n` places ahead. -/
def isClear (cursor : Cursor) (n : Nat) : Bool :=
  (cursor.peek? n).all fun c => isGap c || isBreak c

/-- Whether a line break or the end is next. -/
def atLineEnd (cursor : Cursor) : Bool := (cursor.peek? 0).all isBreak

/-- Whether a gap or a line break is next. -/
def atGapOrBreak (cursor : Cursor) : Bool := (cursor.peek? 0).any fun c => isGap c || isBreak c

/-- The cursor `n` characters further on the same line. -/
def skip (cursor : Cursor) (n : Nat) : Cursor :=
  ⟨cursor.rest.drop n, cursor.index + Text.byteLength (cursor.rest.take n), cursor.line,
    cursor.column + n⟩

/-- The cursor behind the characters of this line that satisfy `p`. -/
def skipWhile (p : Char → Bool) (cursor : Cursor) : Cursor :=
  cursor.skip (cursor.rest.takeWhile p).length

/-- The cursor behind a byte order mark that begins a line. The mark counts as a character of that
line. -/
def skipByteOrderMark (cursor : Cursor) : Cursor :=
  if cursor.column == 0 && cursor.isAt 0 (Char.ofNat 0xFEFF) then cursor.skip 1 else cursor

/-- Takes the line break that is next. All kinds of line breaks count as a newline, except the two
separators of lines and paragraphs, which stand for themselves. -/
def takeBreak (cursor : Cursor) : Text × Cursor :=
  match cursor.rest with
  | '\r' :: '\n' :: rest => (['\n'], ⟨rest, cursor.index + 2, cursor.line + 1, 0⟩)
  | c :: rest =>
    (if c.toNat == 0x2028 || c.toNat == 0x2029 then [c] else ['\n'],
      ⟨rest, cursor.index + c.utf8Size, cursor.line + 1, 0⟩)
  | [] => ([], cursor)

/-- Whether the given mark of a document stands here, at the beginning of a line. -/
def atMark (cursor : Cursor) (mark : Text) : Bool :=
  cursor.column == 0 && mark.isPrefixOf cursor.rest && cursor.isClear 3

/-- Whether a document begins or ends here. -/
def atDocumentMark (cursor : Cursor) : Bool :=
  cursor.atMark ['-', '-', '-'] || cursor.atMark ['.', '.', '.']

end Cursor

end Yaml

end ExplicitInstantiation
