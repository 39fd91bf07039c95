import ExplicitInstantiation.Text.Basic

/-!
# Instantiations

An instantiation is a class with its arguments. It is declared to the compiler by the line
`template class Name<a,b>;`, and two instantiations are the same when they are written alike.

`Instantiations` keeps the first of each kind, in the order in which they came.
-/

namespace ExplicitInstantiation

/-- A template class with the arguments it is instantiated with. -/
structure Instantiation where
  /-- The name of the class. -/
  className : Text
  /-- The arguments, as they are written. -/
  arguments : List Text
  deriving Repr, DecidableEq

namespace Instantiation

/-- The instantiation as it is written, `Name<a,b>`. -/
def toText (instantiation : Instantiation) : Text :=
  instantiation.className ++ '<' :: Text.join [','] instantiation.arguments ++ ['>']

/-- The explicit instantiation, `template class Name<a,b>;`. -/
def declaration (instantiation : Instantiation) : Text :=
  "template class ".toList ++ instantiation.toText ++ [';']

/-- Whether two instantiations are the same, that is, written alike. -/
def isSame (a b : Instantiation) : Bool :=
  a.toText == b.toText

/-- The order of instantiations, which is that of their written forms. -/
def compare (a b : Instantiation) : Ordering :=
  a.toText.compare b.toText

/-- Two instantiations are the same exactly if they are written alike. -/
@[simp] theorem isSame_iff {a b : Instantiation} : a.isSame b = true ↔ a.toText = b.toText := by
  simp [isSame]

end Instantiation

/-- Different instantiations, in the order in which they were first met. -/
structure Instantiations where
  /-- The instantiations. -/
  items : List Instantiation
  deriving Repr, DecidableEq

namespace Instantiations

/-- No instantiations. -/
def empty : Instantiations := ⟨[]⟩

/-- Whether the same instantiation is already there. -/
def contains (set : Instantiations) (instantiation : Instantiation) : Bool :=
  set.items.any instantiation.isSame

/-- Adds an instantiation unless it is already there. -/
def insert (set : Instantiations) (instantiation : Instantiation) : Instantiations :=
  if set.contains instantiation then set else ⟨set.items ++ [instantiation]⟩

/-- The instantiations of a list, each one once. -/
def ofList (instantiations : List Instantiation) : Instantiations :=
  instantiations.foldl insert empty

/-- The number of instantiations. -/
def size (set : Instantiations) : Nat := set.items.length

/-- Whether there are none. -/
def isEmpty (set : Instantiations) : Bool := set.items.isEmpty

/-- The declarations, one for each instantiation. -/
def declarations (set : Instantiations) : List Text :=
  set.items.map Instantiation.declaration

end Instantiations

end ExplicitInstantiation
