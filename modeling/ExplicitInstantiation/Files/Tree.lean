import ExplicitInstantiation.Files.Procedure

/-!
# A tree of files and directories

A file tree maps places to what stands there: a directory or a file. A file has permissions, and it
holds a text or bytes that are no text. A place is the list of the names that lead to it from the
root, so a place has no `.` and no `..` in it; `FileTree.locate` follows a path, from the root or
from the working directory, to the place it names.

A name has at most 255 bytes, and a path as it is written at most 4095, even where it names a place
that could be named by a shorter one.

The files belong to the user who runs the program. That user may read a file as far as its
permissions go, except the superuser, who may read every file.

A file is replaced in steps (`FileTree.write`): a temporary file is made in the directory above it,
the content is written there, the permissions of the file that is to be replaced are taken over, and
the temporary file is renamed. What the operating system decides on the way, which names are drawn
and which steps it refuses, is given by `Circumstances`; the permissions of directories matter only
as reasons for a refusal. When a step fails, the temporary file is removed.
-/

namespace ExplicitInstantiation

/-- The names that lead from the root to a file or directory. -/
abbrev Place := List Text

/-- Who may read, write and run a file: the nine lowest bits of its mode. -/
abbrev Permissions := BitVec 9

namespace Permissions

/-- The permissions of a temporary file: its owner may read and write it. -/
def temporary : Permissions := 0o600

/-- Whether the owner may read the file. -/
def ownerReads (permissions : Permissions) : Bool :=
  permissions.getLsbD 8

end Permissions

/-- What a file holds. -/
inductive Content where
  /-- A text. -/
  | text (content : Text)
  /-- Bytes that are not UTF-8. -/
  | raw (bytes : List UInt8)
  deriving Repr, DecidableEq

/-- What stands at a place. -/
inductive Entry where
  /-- A directory. -/
  | directory
  /-- A file. -/
  | file (permissions : Permissions) (content : Content)
  deriving Repr, DecidableEq

/-- The permissions of a file. -/
def Entry.permissions? : Entry → Option Permissions
  | directory => none
  | file permissions _ => some permissions

/-- Files and directories, and the program that uses them. -/
structure FileTree where
  /-- What stands where; the root is not listed. -/
  entries : List (Place × Entry)
  /-- The place from which relative paths start. -/
  workingDirectory : Place
  /-- Whether the program is run by the superuser, whom no permissions keep from reading. -/
  superuser : Bool
  deriving Repr, DecidableEq

namespace FileTree

/-- What stands at a place; the root is a directory. -/
def entry? (tree : FileTree) : Place → Option Entry
  | [] => some .directory
  | place => (tree.entries.find? (·.1 == place)).map Prod.snd

/-- `entries` with an entry put at a place. -/
def putIn (place : Place) (entry : Entry) : List (Place × Entry) → List (Place × Entry)
  | [] => [(place, entry)]
  | first :: rest =>
    if first.1 = place then (place, entry) :: rest else first :: putIn place entry rest

/-- The tree with an entry put at a place. -/
def put (tree : FileTree) (place : Place) (entry : Entry) : FileTree :=
  { tree with entries := putIn place entry tree.entries }

/-- The tree without what stands at a place. -/
def erase (tree : FileTree) (place : Place) : FileTree :=
  { tree with entries := tree.entries.filter (·.1 != place) }

/-! ### Paths -/

/-- How many bytes a name has at most. -/
def nameLimit : Nat := 255

/-- How many bytes a path has at most. -/
def pathLimit : Nat := 4095

/-- Fails with a fault where something is the case. -/
def refuse (condition : Prop) [Decidable condition] (fault : FileFault) : Except FileFault Unit :=
  if condition then .error fault else .ok ()

/-- Whether a path can be followed at all: it is not empty and not too long. -/
def requireUsable (path : Path) : Except FileFault Unit :=
  if path.isEmpty then .error .notFound
  else if pathLimit < path.text.byteLength then .error .nameTooLong
  else .ok ()

/-- Whether a name is short enough to stand in a directory. -/
def requireName (name : Text) : Except FileFault Unit :=
  if nameLimit < name.byteLength then .error .nameTooLong else .ok ()

/-- Whether a directory stands at a place, and the fault if none does. -/
def requireDirectory (tree : FileTree) (place : Place) : Except FileFault Unit :=
  match tree.entry? place with
  | some .directory => .ok ()
  | some _ => .error .notDirectory
  | none => .error .notFound

/-- The place that a piece of a path leads to from a directory. -/
def follow (tree : FileTree) (place : Place) (piece : Text) : Except FileFault Place := do
  tree.requireDirectory place
  if piece = [] ∨ piece = ['.'] then return place
  else if piece = ['.', '.'] then return place.dropLast
  else
    requireName piece
    return place ++ [piece]

/-- Where a path starts. -/
def start (tree : FileTree) (path : Path) : Place :=
  if path.isAbsolute then [] else tree.workingDirectory

/-- The place that a path names. Something need not stand there, but every step on the way has to
lead through a directory. -/
def locate (tree : FileTree) (path : Path) : Except FileFault Place := do
  refuse path.hasNul .nulInPath
  requireUsable path
  (path.text.splitOn '/').foldlM tree.follow (tree.start path)

/-! ### Making and removing -/

/-- Follows a piece of a path from a place in a tree, and makes a directory where nothing stands. -/
def enter (reached : FileTree × Place) (piece : Text) : Except FileFault (FileTree × Place) := do
  let (tree, place) := reached
  let next ← tree.follow place piece
  if (tree.entry? next).isSome then return (tree, next)
  else return (tree.put next .directory, next)

/-- The tree with a directory at a path, and with the directories that lead there. -/
def makeDirectory (tree : FileTree) (path : Path) : Except FileFault FileTree := do
  let (tree, place) ← (path.text.splitOn '/').foldlM enter (tree, tree.start path)
  tree.requireDirectory place
  return tree

/-- The tree with a file put at a path, and with the directories that lead there. No directory may
stand there. -/
def makeFile (tree : FileTree) (path : Path) (file : Entry) : Except FileFault FileTree := do
  let tree ← tree.makeDirectory (path.parent?.getD ⟨[]⟩)
  let place ← tree.locate path
  refuse (tree.entry? place = some .directory) .isDirectory
  return tree.put place file

/-- The tree without the file that a path leads to. A directory stays. -/
def remove (tree : FileTree) (path : Path) : FileTree :=
  match tree.locate path with
  | .ok place =>
    if tree.entry? place = some .directory then tree else tree.erase place
  | .error _ => tree

/-! ### Reading -/

/-- Whether a file with the given permissions may be read. -/
def mayRead (tree : FileTree) (permissions : Permissions) : Bool :=
  tree.superuser || permissions.ownerReads

/-- The text of a file. -/
def read (tree : FileTree) (path : Path) : Except FileFault Text := do
  let place ← tree.locate path
  match tree.entry? place with
  | some (.file permissions content) =>
    refuse (tree.mayRead permissions = false) .denied
    match content with
    | .text content => .ok content
    | .raw _ => .error .notText
  | some .directory => .error .isDirectory
  | none => .error .notFound

/-- Whether something stands where a path leads. -/
def probe (tree : FileTree) (path : Path) : Except FileFault Bool :=
  match tree.locate path with
  | .ok place => .ok (tree.entry? place).isSome
  | .error .notFound => .ok false
  | .error fault => .error fault

/-! ### Replacing -/

/-- The path of the working directory. -/
def workingPath (tree : FileTree) : Path :=
  ⟨'/' :: Text.join ['/'] tree.workingDirectory⟩

/-- The path of the working directory, if it is there. -/
def currentDirectory (tree : FileTree) : Except FileFault Path :=
  if tree.entry? tree.workingDirectory = some .directory then .ok tree.workingPath
  else .error .notFound

/-- The directory in which the temporary file for `path` is made. -/
def temporaryDirectory (tree : FileTree) (path : Path) : Except FileFault Path :=
  match path.parent? with
  | some parent => if parent.isEmpty then tree.currentDirectory else .ok parent
  | none => tree.currentDirectory

/-- The path of a temporary file in a directory, from the root on. -/
def temporaryPath (tree : FileTree) (directory : Path) (name : Text) : Path :=
  (tree.workingPath.under directory).under ⟨name⟩

/-- Makes an empty file in a directory, under the first of the given names under which nothing
stands there, unless the operating system refuses to. -/
def createTemporary (tree : FileTree) (directory : Path) (refusal : Option FileFault) :
    List Text → Except FileFault (FileTree × Place)
  | [] => .error (.other "too many temporary files exist".toList)
  | name :: names => do
    let place ← tree.locate (tree.temporaryPath directory name)
    if (tree.entry? place).isSome then tree.createTemporary directory refusal names
    else
      match refusal with
      | some fault => throw fault
      | none => return (tree.put place (.file .temporary (.text [])), place)

/-- The permissions of the file that a path leads to. -/
def permissions? (tree : FileTree) (path : Path) : Option Permissions :=
  match tree.locate path with
  | .ok place => (tree.entry? place).bind Entry.permissions?
  | .error _ => none

/-- The place where a file can be put by renaming it to `path`. The last piece of the path has to
be a name, without a slash behind it, and no directory may stand there. -/
def renameTarget (tree : FileTree) (path : Path) : Except FileFault Place := do
  refuse path.hasNul .invalidArgument
  requireUsable path
  let body := path.text.dropEndWhile (· == '/')
  let pieces := body.splitOn '/'
  let name := pieces.getLastD []
  let above ← pieces.dropLast.foldlM tree.follow (tree.start path)
  tree.requireDirectory above
  refuse (name = [] ∨ name = ['.'] ∨ name = ['.', '.']) .busy
  requireName name
  refuse (body.length < path.text.length) .notDirectory
  refuse (tree.entry? (above ++ [name]) = some .directory) .isDirectory
  return above ++ [name]

/-- Moves the file at a place to where a path leads, unless the operating system refuses to. -/
def rename (tree : FileTree) (source : Place) (path : Path) (refusal : Option FileFault) :
    Except FileFault FileTree := do
  let target ← tree.renameTarget path
  match refusal, tree.entry? source with
  | some fault, _ => throw fault
  | none, some file => return (tree.erase source).put target file
  | none, none => throw .notFound

/-- What the operating system decides when a file is replaced. -/
structure Circumstances where
  /-- The names that are drawn for the temporary file, until one of them is free. -/
  names : List Text
  /-- If no temporary file may be made: why. -/
  creationFault : Option FileFault
  /-- If the content cannot be written: the bytes that were written of it, and the fault. -/
  interruption : Option (List UInt8 × FileFault)
  /-- Whether the permissions of the temporary file can be changed. -/
  permissionsChange : Bool
  /-- If the temporary file may not be renamed: why. -/
  renameFault : Option FileFault
  deriving Repr, DecidableEq

/-- The permissions that a temporary file for `path` ends up with: those of the file that stands
there, if there is one and they can be changed. That they cannot be changed is no fault. -/
def keptPermissions (tree : FileTree) (circumstances : Circumstances) (path : Path) : Permissions :=
  match tree.permissions? path with
  | some permissions => if circumstances.permissionsChange then permissions else .temporary
  | none => .temporary

/-- Replaces the content of a file as a whole: the tree afterwards, and the answer. -/
def write (tree : FileTree) (circumstances : Circumstances) (path : Path) (content : Text) :
    FileTree × Except WriteFault Unit :=
  match tree.temporaryDirectory path with
  | .error fault => (tree, .error (.workingDirectory fault))
  | .ok directory =>
    match tree.createTemporary directory circumstances.creationFault circumstances.names with
    | .error fault => (tree, .error (.temporary directory fault))
    | .ok (opened, place) =>
      match circumstances.interruption with
      | some (written, fault) =>
        ((opened.put place (.file .temporary (.raw written))).erase place,
          .error (.content path fault))
      | none =>
        let filled := opened.put place (.file .temporary (.text content))
        let permissions := filled.keptPermissions circumstances path
        let ready := filled.put place (.file permissions (.text content))
        match ready.rename place path circumstances.renameFault with
        | .error fault => (ready.erase place, .error (.replacement path fault))
        | .ok renamed => (renamed, .ok ())

/-- The name of a temporary file: six digits behind `.tmp`. -/
def temporaryName (n : Nat) : Text :=
  ".tmp".toList ++ List.replicate (6 - (Text.ofNat n).length) '0' ++ Text.ofNat n

/-- Names for a temporary file, one more than there are files and directories, and nothing is
refused. -/
def circumstances (tree : FileTree) : Circumstances where
  names := (List.range (tree.entries.length + 1)).map temporaryName
  creationFault := none
  interruption := none
  permissionsChange := true
  renameFault := none

/-- The tree with the content of a file replaced as a whole. -/
def replace (tree : FileTree) (path : Path) (content : Text) : Except WriteFault FileTree :=
  match tree.write tree.circumstances path content with
  | (changed, .ok ()) => .ok changed
  | (_, .error fault) => .error fault

instance : Store FileTree where
  read := read
  probe := probe
  replace := replace

end FileTree

end ExplicitInstantiation
