import ExplicitInstantiation.Command.Run

/-!
# The program on a disk

Performs the steps of the program on the files of the operating system.
-/

namespace ExplicitInstantiation

namespace Disk

/-- The fault behind an error of the operating system. -/
def faultOf (error : IO.Error) : FileFault :=
  match error with
  | .noFileOrDirectory _ 20 _ => .notDirectory
  | .noFileOrDirectory .. => .notFound
  | .inappropriateType _ 20 _ => .notDirectory
  | .inappropriateType _ 21 _ => .isDirectory
  | .permissionDenied _ 13 _ => .denied
  | .resourceBusy .. => .busy
  | .invalidArgument _ 36 _ => .nameTooLong
  | .invalidArgument .. => .invalidArgument
  | error => .other (toString error).toList

/-- The text of a file. -/
def read (path : Path) : IO (Except FileFault Text) := do
  if path.hasNul then return .error .nulInPath
  try
    let bytes ← IO.FS.readBinFile path.toString
    match String.fromUTF8? bytes with
    | some content => return .ok content.toList
    | none => return .error .notText
  catch error => return .error (faultOf error)

/-- Whether there is a file or directory. -/
def probe (path : Path) : IO (Except FileFault Bool) := do
  if path.hasNul then return .error .nulInPath
  try
    let file := (← IO.currentDir) / path.toString
    let _ ← file.metadata
    return .ok true
  catch error =>
    match faultOf error with
    | .notFound => return .ok false
    | fault => return .error fault

/-- Whether a file can be opened in a mode. -/
def opens (path : Path) (mode : IO.FS.Mode) : IO Bool := do
  try
    let _ ← IO.FS.Handle.mk path.toString mode
    return true
  catch _ => return false

/-- What the user may do with the file that a path leads to, if there is one. A mode cannot be asked
for, so this is found by opening the file. -/
def rights? (path : Path) : IO (Option IO.AccessRight) := do
  try
    let file := (← IO.currentDir) / path.toString
    match (← file.metadata).type with
    | .file => return some { read := ← opens path .read, write := ← opens path .append }
    | _ => return none
  catch _ => return none

/-- Gives a temporary file the rights of the file that it is to replace. The rights of other users
cannot be found out: they are those of every new file if the owner may read and write the file, and
none otherwise. Where there is no file, only the owner may read and write the new one. -/
def keepRights (path : Path) (temporary : String) : IO Unit := do
  try
    match ← rights? path with
    | some { read := true, write := true, .. } => pure ()
    | some rights => IO.setAccessRights temporary { user := rights }
    | none => IO.setAccessRights temporary { user := { read := true, write := true } }
  catch _ => pure ()

/-- Replaces the content of a file through a temporary file beside it, which takes over its
rights. -/
def replace (workingDirectory path : Path) (content : Text) : IO (Except WriteFault Unit) := do
  let directory :=
    match path.parent? with
    | some parent => if parent.isEmpty then workingDirectory else parent
    | none => workingDirectory
  let name : Text := ".tmp".toList ++ Text.ofNat (← IO.monoNanosNow)
  let temporary : String := (directory.under ⟨name⟩).toString
  if directory.hasNul then return .error (.temporary directory .nulInPath)
  let file ←
    try IO.FS.Handle.mk temporary .writeNew
    catch error => return .error (.temporary directory (faultOf error))
  try
    file.putStr (String.ofList content)
    file.flush
  catch error =>
    try IO.FS.removeFile temporary catch _ => pure ()
    return .error (.content path (faultOf error))
  keepRights path temporary
  try
    IO.FS.rename temporary path.toString
    return .ok ()
  catch error =>
    try IO.FS.removeFile temporary catch _ => pure ()
    return .error (.replacement path (faultOf error))

/-- Performs the steps of a procedure. -/
def perform {α : Type} (workingDirectory : Path) : Procedure α → IO α
  | .done result => return result
  | .read path next => do perform workingDirectory (next (← read path))
  | .probe path next => do perform workingDirectory (next (← probe path))
  | .replace path content next => do
    perform workingDirectory (next (← replace workingDirectory path content))

end Disk

end ExplicitInstantiation

open ExplicitInstantiation in
/-- Runs the program with the given command-line arguments. -/
def main (arguments : List String) : IO UInt32 := do
  let workingDirectory := Path.ofString (toString (← IO.currentDir))
  let steps := program workingDirectory (arguments.map String.toList)
  let outcome ← Disk.perform workingDirectory steps
  IO.print (String.ofList outcome.output)
  IO.eprint (String.ofList outcome.errors)
  return outcome.code.toUInt32
