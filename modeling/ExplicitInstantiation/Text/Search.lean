import ExplicitInstantiation.Text.Identifier

/-!
# Searching in text

Three searches are needed. A text is cut at the first place where another one stands
(`Text.cutAtFirst`). Every occurrence of a name is replaced (`Text.replaceAll`). And the places
are listed where a name stands as a word of its own (`Text.wordOccurrences`).

The last two walk the text from left to right, and an occurrence that has been met, accepted or
not, is passed as a whole: the next one starts at its end or later. The walk counts the characters
of an occurrence that are still to be passed, so it recurs on the text itself.
-/

namespace ExplicitInstantiation

namespace Text

/-- Cuts at the first occurrence of `needle` into what stands before and after it. -/
def cutAtFirst : (t needle : Text) → Option (Text × Text)
  | [], needle => if needle.isEmpty then some ([], []) else none
  | c :: rest, needle =>
    if needle.isPrefixOf (c :: rest) then some ([], (c :: rest).drop needle.length)
    else (cutAtFirst rest needle).map fun (before, after) => (c :: before, after)

/-- Whether `needle` stands somewhere in the text. -/
def hasText : (t needle : Text) → Bool
  | [], needle => needle.isEmpty
  | c :: rest, needle => needle.isPrefixOf (c :: rest) || hasText rest needle

/-- The search finds exactly the texts that stand somewhere in the text. -/
theorem hasText_iff {t needle : Text} : t.hasText needle = true ↔ needle <:+: t := by
  induction t with
  | nil => simp [hasText]
  | cons c rest ih =>
    rw [hasText, Bool.or_eq_true, List.isPrefixOf_iff_prefix, ih]
    exact List.infix_cons_iff.symm

/-- Cuts at the first occurrence of a character into what stands before and after it. -/
def cutAtChar (mark : Char) : Text → Option (Text × Text)
  | [] => none
  | c :: rest =>
    if c = mark then some ([], rest)
    else (cutAtChar mark rest).map fun (before, after) => (c :: before, after)

/-- What stands before the last occurrence of a character. -/
def beforeLastChar (mark : Char) : Text → Option Text
  | [] => none
  | c :: rest =>
    match beforeLastChar mark rest with
    | some before => some (c :: before)
    | none => if c = mark then some [] else none

/-- The text with every occurrence of `name` replaced, when `skip` characters of an occurrence are
still to be passed. -/
def replaceFrom (name value : Text) : Nat → Text → Text
  | _, [] => []
  | skip + 1, _ :: rest => replaceFrom name value skip rest
  | 0, c :: rest =>
    if name.isPrefixOf (c :: rest) then value ++ replaceFrom name value (name.length - 1) rest
    else c :: replaceFrom name value 0 rest

/-- The text with every occurrence of `name`, which is not empty, replaced by `value`. -/
def replaceAll (t name value : Text) : Text :=
  replaceFrom name value 0 t

/-- In the empty text nothing is replaced. -/
@[simp] theorem replaceAll_nil (name value : Text) : replaceAll [] name value = [] := rfl

/-! ### Words -/

/-- A place where a name stands in a line. -/
structure Occurrence where
  /-- The number of characters before the name. -/
  column : Nat
  /-- The character right before the name. -/
  previous : Option Char
  /-- What follows the name. -/
  rest : Text
  deriving Repr, DecidableEq

/-- Whether no identifier character touches the name at this place. -/
def Occurrence.isWord (place : Occurrence) : Bool :=
  !(place.previous.any isIdentifierChar) && !(place.rest.head?.any isIdentifierChar)

/-- The occurrences of `name`, when `column` characters, the last of them `previous`, are behind
and `skip` characters of an occurrence are still to be passed. -/
def occurrencesFrom (name : Text) :
    (column : Nat) → (previous : Option Char) → (skip : Nat) → Text → List Occurrence
  | _, _, _, [] => []
  | column, _, skip + 1, c :: rest => occurrencesFrom name (column + 1) (some c) skip rest
  | column, previous, 0, c :: rest =>
    if name.isPrefixOf (c :: rest) then
      ⟨column, previous, (c :: rest).drop name.length⟩ ::
        occurrencesFrom name (column + 1) (some c) (name.length - 1) rest
    else occurrencesFrom name (column + 1) (some c) 0 rest

/-- The occurrences of `name`, which is not empty, from left to right and without overlap. -/
def occurrences (line name : Text) : List Occurrence :=
  occurrencesFrom name 0 none 0 line

/-- The occurrences of `name` that are words. -/
def wordOccurrences (line name : Text) : List Occurrence :=
  (line.occurrences name).filter Occurrence.isWord

/-- What follows the first occurrence of `word` that is a word. -/
def afterWord? (line word : Text) : Option Text :=
  (line.wordOccurrences word).head?.map Occurrence.rest

end Text

end ExplicitInstantiation
