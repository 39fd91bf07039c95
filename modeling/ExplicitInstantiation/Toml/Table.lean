import ExplicitInstantiation.Text.Basic

/-!
# Tables of a TOML document

A document is a table of keys and items. A table comes into being in one of three ways, which
decide how it may still grow: it has a header of its own, it is only implied by the header of a
table inside it, or it is implied by a dotted key. Every key has one item only, so what would give
it a second one is refused.
-/

namespace ExplicitInstantiation

namespace Toml

/-- How a table came into being. -/
inductive Origin where
  /-- By a header. -/
  | header
  /-- By the header of a table inside it. -/
  | implied
  /-- By a dotted key. -/
  | dotted
  deriving Repr, DecidableEq

/-- What a key stands for. -/
inductive Item where
  /-- A string. -/
  | string (content : Text)
  /-- A number, a truth value or a date. -/
  | scalar
  /-- An array. -/
  | array (items : List Item)
  /-- A table between braces. -/
  | braces (entries : List (Text × Item))
  /-- A table made of lines. -/
  | table (origin : Origin) (entries : List (Text × Item))
  /-- Tables under a repeated header. -/
  | tables (items : List (List (Text × Item)))
  deriving Repr

/-- Keys and their items, in the order of the document. -/
abbrev Entries := List (Text × Item)

namespace Entries

/-- Changes the item of a key, which may be missing. The change fails where `change` does. -/
def modify (key : Text) (change : Option Item → Option Item) : Entries → Option Entries
  | [] => (change none).map fun item => [(key, item)]
  | (name, item) :: entries =>
    if name = key then (change (some item)).map fun item => (name, item) :: entries
    else (modify key change entries).map ((name, item) :: ·)

/-- Adds a key that is not there yet. -/
def add (key : Text) (item : Item) : Entries → Option Entries :=
  modify key fun
    | none => some item
    | some _ => none

/-- Changes the last of several tables. -/
def modifyLast (change : Entries → Option Entries) : List Entries → Option (List Entries)
  | [] => none
  | [last] => (change last).map fun last => [last]
  | first :: rest => (modifyLast change rest).map (first :: ·)

/-- Adds a key at the end of a dotted path. The tables on the path are those that dotted keys have
made, and are made where they are missing. -/
def addDotted (key : Text) (item : Item) : List Text → Entries → Option Entries
  | [], entries => add key item entries
  | first :: path, entries =>
    modify first (fun
      | none => (addDotted key item path []).map (.table .dotted)
      | some (.table .dotted inner) => (addDotted key item path inner).map (.table .dotted)
      | some (.table .implied inner) =>
        if path.isEmpty then none else (addDotted key item path inner).map (.table .implied)
      | some (.tables items) =>
        if path.isEmpty then none
        else (modifyLast (addDotted key item path) items).map .tables
      | some _ => none) entries

/-- Changes the table at the end of a path of headers. Missing tables on the path are implied, and
of several tables the last one is meant. -/
def within (change : Entries → Option Entries) : List Text → Entries → Option Entries
  | [], entries => change entries
  | first :: path, entries =>
    modify first (fun
      | none => (within change path []).map (.table .implied)
      | some (.table origin inner) => (within change path inner).map (.table origin)
      | some (.tables items) => (modifyLast (within change path) items).map .tables
      | some _ => none) entries

/-- Opens the table of a header. -/
def openTable (path : List Text) (key : Text) : Entries → Option Entries :=
  within (modify key fun
    | none => some (.table .header [])
    | some (.table .implied entries) => some (.table .header entries)
    | some _ => none) path

/-- Opens one more table of a repeated header. -/
def openTables (path : List Text) (key : Text) : Entries → Option Entries :=
  within (modify key fun
    | none => some (.tables [[]])
    | some (.tables items) => some (.tables (items ++ [[]]))
    | some _ => none) path

end Entries

end Toml

end ExplicitInstantiation
