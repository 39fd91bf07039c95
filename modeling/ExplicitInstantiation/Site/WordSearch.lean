import ExplicitInstantiation.Site.Line

/-!
# The next word

The places where a name stands as a word may be searched one at a time: from an offset on, for the
next word that shares no byte with what is taken. A turn of that search looks for the name, and if
it is no word there or not free, the search goes on behind the whole of it (`WordSearch.turn`).

A run searches a line in one walk (`Text.wordOccurrences`), which comes to the same words from left
to right.
-/

namespace ExplicitInstantiation

/-- A search for a word that is free. Spans count bytes here. -/
structure WordSearch where
  /-- The line that is searched. -/
  line : Text
  /-- The word. -/
  word : Text
  /-- The bytes that are taken. -/
  taken : List Span
  deriving Repr, DecidableEq

/-- What a turn of a search comes to. -/
inductive Turn where
  /-- The search ends, with the offset of a word or with nothing. -/
  | ended (result : Option Nat)
  /-- The search goes on at an offset. -/
  | goesOn (offset : Nat)
  deriving Repr, DecidableEq

namespace WordSearch

/-- The bytes of the word at an offset. -/
def span (search : WordSearch) (offset : Nat) : Span :=
  ⟨offset, offset + search.word.byteLength⟩

/-- Whether no byte of the word is taken at an offset. -/
def isFree (search : WordSearch) (offset : Nat) : Bool :=
  !search.taken.any (·.overlaps (search.span offset))

/-- Looks for the word from an offset on. It is found if it stands as a word there and is free.
Otherwise it is passed as a whole. -/
def turn (search : WordSearch) (offset : Nat) : Turn :=
  match search.line.cutAtByte? offset with
  | none => .ended none
  | some (behind, ahead) =>
    match ahead.cutAtFirst search.word with
    | none => .ended none
    | some (before, after) =>
      let start := offset + before.byteLength
      let previous := behind ++ before
      if Text.Occurrence.isWord ⟨previous.length, previous.getLast?, after⟩ && search.isFree start
      then .ended (some start)
      else .goesOn (start + search.word.byteLength)

/-- What a search returns that ends within some turns. -/
def run (search : WordSearch) : (turns : Nat) → (offset : Nat) → Option (Option Nat)
  | 0, _ => none
  | turns + 1, offset =>
    match search.turn offset with
    | .ended result => some result
    | .goesOn next => search.run turns next

end WordSearch

end ExplicitInstantiation
