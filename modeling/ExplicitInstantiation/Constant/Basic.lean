import ExplicitInstantiation.Text.Search

/-!
# Constants

A constant is a name with the text it stands for. The constants of a run are kept in the order in
which their names were first defined; a later definition of a known name replaces the text and
keeps the place.

`Constants.substitute` replaces names by their texts, one constant after the other and the
longest names first, so that a name is not mistaken for the beginning of a longer one.
-/

namespace ExplicitInstantiation

/-- A named piece of text. -/
structure Constant where
  /-- The name. -/
  name : Text
  /-- The text it stands for. -/
  value : Text
  deriving Repr, DecidableEq

/-- Constants in the order of their first definitions. -/
structure Constants where
  /-- The constants; no two of them share a name when they were all put there by `define`. -/
  entries : List Constant
  deriving Repr, DecidableEq

namespace Constants

/-- No constants. -/
def empty : Constants := ⟨[]⟩

/-- `entries` with the constant put in the place of its name, or at the end. -/
def put (constant : Constant) : List Constant → List Constant
  | [] => [constant]
  | entry :: entries =>
    if entry.name = constant.name then constant :: entries
    else entry :: put constant entries

/-- Defines a constant, or gives a known one its new text. -/
def define (constants : Constants) (constant : Constant) : Constants :=
  ⟨put constant constants.entries⟩

/-- The constants defined one after the other. -/
def ofList (definitions : List Constant) : Constants :=
  definitions.foldl define empty

/-- The text that a name stands for. -/
def get? (constants : Constants) (name : Text) : Option Text :=
  (constants.entries.find? (·.name == name)).map Constant.value

/-- The number of constants. -/
def size (constants : Constants) : Nat :=
  constants.entries.length

/-- Whether there are none. -/
def isEmpty (constants : Constants) : Bool :=
  constants.entries.isEmpty

/-- The constants with the longest names first, lengths being counted in bytes. Constants with
names of one length keep their order. -/
def longestFirst (constants : Constants) : List Constant :=
  constants.entries.mergeSort fun a b => b.name.byteLength ≤ a.name.byteLength

/-- Replaces every constant in a text. The replacement is textual: a name is replaced also inside
a longer word, and in the texts that earlier replacements have brought in. -/
def substitute (constants : Constants) (t : Text) : Text :=
  constants.longestFirst.foldl (fun t constant => t.replaceAll constant.name constant.value) t

/-- Without constants a text stays as it is. -/
@[simp] theorem substitute_empty (t : Text) : empty.substitute t = t := by
  simp [substitute, longestFirst, empty]

/-- A name stands for the text it was last given. -/
theorem get?_define_self (constants : Constants) (constant : Constant) :
    (constants.define constant).get? constant.name = some constant.value := by
  obtain ⟨entries⟩ := constants
  simp only [define, get?]
  induction entries with
  | nil => simp [put]
  | cons entry entries ih =>
    rw [put]
    split
    · simp
    · rw [List.find?_cons_of_neg (by simpa)]
      exact ih

end Constants

end ExplicitInstantiation
