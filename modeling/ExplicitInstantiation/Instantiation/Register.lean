import Mathlib.Data.Finset.Insert
import ExplicitInstantiation.Instantiation.Resolve

/-!
# Instantiations with their written forms

While instantiations are collected, their written forms may be kept in a set of their own. A new
instantiation is then looked up there, and its form is put there when it is taken in.

A run looks through the instantiations themselves (`Instantiations`). The set spares that search and
changes nothing else.
-/

namespace ExplicitInstantiation

/-- Instantiations in the order in which they came, with the set of their written forms. -/
structure Register where
  /-- The instantiations. -/
  ordered : List Instantiation
  /-- Their written forms. -/
  seen : Finset Text

namespace Register

/-- Nothing has been collected. -/
def empty : Register := ⟨[], ∅⟩

/-- Looks an instantiation up among the written forms and takes it in if it is new; says whether it
was. -/
def insert (register : Register) (instantiation : Instantiation) : Bool × Register :=
  if instantiation.toText ∈ register.seen then (false, register)
  else
    (true,
      { ordered := register.ordered ++ [instantiation]
        seen := Insert.insert instantiation.toText register.seen })

/-- Collects a list of instantiations. -/
def ofList (instantiations : List Instantiation) : Register :=
  instantiations.foldl (fun register instantiation => (register.insert instantiation).2) empty

/-- Resolves one site after the other and collects what they stand for. -/
def ofSites (constants : Constants) (sites : List Site) : Except Unfoldable Register :=
  sites.foldlM (fun register site =>
    (site.resolve constants).map fun instantiation => (register.insert instantiation).2) empty

end Register

end ExplicitInstantiation
