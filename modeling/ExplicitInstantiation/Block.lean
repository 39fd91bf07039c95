import ExplicitInstantiation.Instantiation.Basic
import ExplicitInstantiation.Text.Blank
import ExplicitInstantiation.Text.Search

/-!
# The generated block

A target file ends in a generated block: a line with the marker, a line with a notice, and one
line for each declaration. Whatever stands before the first line that contains the marker belongs
to the author of the file and is kept; the rest is replaced.
-/

namespace ExplicitInstantiation

namespace Block

/-- The second line of a block. -/
def notice : Text := "// Do not add or modify anything after these comments".toList

/-- What separates the block from a text that had none. -/
def separator : Text := ['\n', '\n', '\n']

/-- The block with the given marker. -/
def render (marker : Text) (instantiations : Instantiations) : Text :=
  marker ++ '\n' :: notice ++ '\n' :: instantiations.declarations.flatMap (· ++ ['\n'])

/-- The lines before the first one that contains `needle`. -/
def linesBefore? (needle : Text) : List Text → Option (List Text)
  | [] => none
  | line :: lines =>
    if line.hasText needle then some [] else (linesBefore? needle lines).map (line :: ·)

/-- The text before the first line that contains the marker, without regard to blanks around the
marker; `none` when there is no such line. -/
def keptText? (marker existing : Text) : Option Text :=
  (linesBefore? marker.trim existing.fullLines).map List.flatten

/-- The text that a block follows: what is kept of the existing text, or all of it and a
separator. -/
def bodyText (marker existing : Text) : Text :=
  (keptText? marker existing).getD (existing ++ separator)

/-- The existing text with its block brought up to date. -/
def update (marker existing : Text) (instantiations : Instantiations) : Text :=
  bodyText marker existing ++ render marker instantiations

end Block

end ExplicitInstantiation
