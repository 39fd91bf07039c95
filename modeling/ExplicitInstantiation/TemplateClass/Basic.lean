import ExplicitInstantiation.Text.Basic

/-!
# Template classes

A template class is known by its name and by how many arguments an instantiation has to pass at
least. Two classes are the same when their names are: the count is not part of the identity.
-/

namespace ExplicitInstantiation

/-- A template class that a header declares. -/
structure TemplateClass where
  /-- The name of the class. -/
  name : Text
  /-- The number of template parameters without a default. -/
  required : Nat
  deriving Repr, DecidableEq

namespace TemplateClass

/-- Whether two classes are the same, which is decided by their names. -/
def isSame (a b : TemplateClass) : Bool :=
  a.name == b.name

/-- The order of classes, which is that of their names. -/
def compare (a b : TemplateClass) : Ordering :=
  a.name.compare b.name

/-- Two classes are the same exactly if they have the same name. -/
@[simp] theorem isSame_iff {a b : TemplateClass} : a.isSame b = true ↔ a.name = b.name := by
  simp [isSame]

/-- The classes with the longest names first, lengths being counted in bytes. Classes with names
of one length keep their order. -/
def longestFirst (classes : List TemplateClass) : List TemplateClass :=
  classes.mergeSort fun a b => b.name.byteLength ≤ a.name.byteLength

/-- Sorting neither adds nor loses a class. -/
theorem mem_longestFirst {classes : List TemplateClass} {c : TemplateClass} :
    c ∈ longestFirst classes ↔ c ∈ classes :=
  List.mem_mergeSort

end TemplateClass

end ExplicitInstantiation
