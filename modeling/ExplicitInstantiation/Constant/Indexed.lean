import Mathlib.Init
import ExplicitInstantiation.Constant.Basic

/-!
# Constants with an index

The constants of a run may be kept together with an index, which maps each name to the place of its
constant in the list. A definition then looks its name up in the index and replaces the text at that
place, or it puts the constant at the end of the list and its place into the index.

A run keeps its constants in the list alone (`Constants`). The index spares the search for a name
and changes nothing else.
-/

namespace ExplicitInstantiation

/-- A text is hashed as the string that it spells. -/
instance Text.hashable : Hashable Text := ⟨fun t => hash (String.ofList t)⟩

/-- Constants in the order of their first definitions, with the places of their names. -/
structure IndexedConstants where
  /-- The constants. -/
  entries : List Constant
  /-- The place of each name. -/
  index : Std.HashMap Text Nat

namespace IndexedConstants

/-- No constants. -/
def empty : IndexedConstants := ⟨[], ∅⟩

/-- Defines a constant, or gives a known one its new text. -/
def insert (table : IndexedConstants) (constant : Constant) : IndexedConstants :=
  match table.index[constant.name]? with
  | some place =>
    { table with
      entries := table.entries.modify place fun entry => { entry with value := constant.value } }
  | none =>
    { entries := table.entries ++ [constant]
      index := table.index.insert constant.name table.entries.length }

/-- The constants defined one after the other. -/
def ofList (definitions : List Constant) : IndexedConstants :=
  definitions.foldl insert empty

/-- The text that a name stands for, found through the index. -/
def get? (table : IndexedConstants) (name : Text) : Option Text :=
  table.index[name]?.bind fun place => table.entries[place]?.map Constant.value

/-- The constants without the index. -/
def toConstants (table : IndexedConstants) : Constants :=
  ⟨table.entries⟩

end IndexedConstants

end ExplicitInstantiation
