import ExplicitInstantiation.Text.Search

/-!
# Paths

A path is kept as it was written, since it is shown that way. What it names is decided by its
components: repeated and final slashes do not count, nor does a component `.` unless the path
starts with it. A component `..` is kept, because what it leads to depends on the files.
-/

namespace ExplicitInstantiation

/-- A path as written. -/
structure Path where
  /-- The characters of the path. -/
  text : Text
  deriving Repr, DecidableEq

namespace Path

/-- The path written as a string. -/
def ofString (s : String) : Path := ⟨s.toList⟩

/-- The path as a string. -/
def toString (path : Path) : String := String.ofList path.text

/-- Whether nothing is written. -/
def isEmpty (path : Path) : Bool := path.text.isEmpty

/-- Whether the path starts at the root of the file system. -/
def isAbsolute (path : Path) : Bool := path.text.head? == some '/'

/-- Whether a NUL character, which would end the path early, is part of it. -/
def hasNul (path : Path) : Bool := path.text.contains (Char.ofNat 0)

/-! ### Components -/

/-- A step of a path. -/
inductive Component where
  /-- The root of the file system. -/
  | root
  /-- `.` at the start of a relative path. -/
  | here
  /-- `..` -/
  | up
  /-- A file or directory name. -/
  | name (text : Text)
  deriving Repr, DecidableEq

/-- The component that a piece between slashes stands for, if it counts. -/
def Component.ofPiece? (piece : Text) : Option Component :=
  if piece = [] ∨ piece = ['.'] then none
  else if piece = ['.', '.'] then some .up
  else some (.name piece)

/-- The components of a path. -/
def components (path : Path) : List Component :=
  let pieces := path.text.splitOn '/'
  let start :=
    if path.isAbsolute then [Component.root]
    else if pieces.head? = some ['.'] then [Component.here]
    else []
  start ++ pieces.filterMap Component.ofPiece?

/-- Whether two paths have the same components. -/
def isSame (a b : Path) : Bool :=
  a.components == b.components

/-- Two paths are the same exactly if they have the same components. -/
@[simp] theorem isSame_iff {a b : Path} : a.isSame b = true ↔ a.components = b.components := by
  simp [isSame]

/-! ### Joining -/

/-- `path` seen from `root`: an absolute path stands for itself, any other one is appended. -/
def under (root path : Path) : Path :=
  if path.isAbsolute then path
  else if root.isEmpty || root.text.getLast? == some '/' then ⟨root.text ++ path.text⟩
  else ⟨root.text ++ '/' :: path.text⟩

/-- The empty root changes nothing. -/
@[simp] theorem under_nil (path : Path) : under ⟨[]⟩ path = path := by
  simp [under, isEmpty]

/-! ### Parents and extensions -/

/-- Drops from a reversed path the slashes and the `.` components it starts with, which are those
that the path ends with. A slash or a dot that starts the path stays. -/
def dropIdle : Text → Text
  | '/' :: c :: rest => dropIdle (c :: rest)
  | '.' :: '/' :: c :: rest => dropIdle (c :: rest)
  | ['.', '/'] => ['/']
  | rest => rest

/-- The path without its last component, or `none` for the root and for the empty path. -/
def parent? (path : Path) : Option Path :=
  match path.components.getLast? with
  | none | some .root => none
  | some _ =>
    let kept := (dropIdle path.text.reverse).dropWhile (· != '/')
    some ⟨(dropIdle kept).reverse⟩

/-- The last component, when it is a name. -/
def fileName? (path : Path) : Option Text :=
  match path.components.getLast? with
  | some (.name text) => some text
  | _ => none

/-- What follows the last dot of a file name, if something stands before that dot. -/
def extension? (path : Path) : Option Text := do
  let name ← path.fileName?
  let stem ← name.beforeLastChar '.'
  if stem.isEmpty then none else some (name.drop (stem.length + 1))

end Path

end ExplicitInstantiation
