import ExplicitInstantiation.Path

/-!
# What can go wrong with a file

The faults that reading, looking for and replacing a file can end in, with the wording of the
operating system where it has one.
-/

namespace ExplicitInstantiation

/-- Why a file cannot be used. -/
inductive FileFault where
  /-- The store keeps no text under this path. -/
  | unknown
  /-- There is no such file or directory. -/
  | notFound
  /-- A path leads through something that is not a directory. -/
  | notDirectory
  /-- A directory stands where a file is needed. -/
  | isDirectory
  /-- The permissions of the file forbid it. -/
  | denied
  /-- The directory is in use and cannot be replaced. -/
  | busy
  /-- A name or a path is longer than the operating system allows. -/
  | nameTooLong
  /-- A path with a NUL character cannot be handed to the operating system. -/
  | nulInPath
  /-- The operating system cannot make sense of the request. -/
  | invalidArgument
  /-- The bytes of the file are not UTF-8. -/
  | notText
  /-- Some other fault, in the words of the operating system. -/
  | other (message : Text)
  deriving Repr, DecidableEq

/-- The wording of a fault. -/
def FileFault.message : FileFault → Text
  | unknown => "not found".toList
  | notFound => "No such file or directory (os error 2)".toList
  | notDirectory => "Not a directory (os error 20)".toList
  | isDirectory => "Is a directory (os error 21)".toList
  | denied => "Permission denied (os error 13)".toList
  | busy => "Device or resource busy (os error 16)".toList
  | nameTooLong => "File name too long (os error 36)".toList
  | nulInPath => "file name contained an unexpected NUL byte".toList
  | invalidArgument => "Invalid argument (os error 22)".toList
  | notText => "stream did not contain valid UTF-8".toList
  | other message => message

/-- Why a file cannot be replaced. A new content is first written to a temporary file beside the
target, which then takes its place. -/
inductive WriteFault where
  /-- The working directory, where the temporary file would be made, is not there. -/
  | workingDirectory (fault : FileFault)
  /-- No temporary file can be made in this directory. -/
  | temporary (directory : Path) (fault : FileFault)
  /-- The content for this file cannot be written to the temporary file. -/
  | content (path : Path) (fault : FileFault)
  /-- The temporary file cannot take the place of this file. -/
  | replacement (path : Path) (fault : FileFault)
  deriving Repr, DecidableEq

/-- The wording of a fault. -/
def WriteFault.message : WriteFault → Text
  | workingDirectory fault => "Failed to get current directory: ".toList ++ fault.message
  | temporary directory fault =>
    "Failed to create temporary file in ".toList ++ directory.text ++ ": ".toList ++ fault.message
  | content path fault =>
    "Failed to write ".toList ++ path.text ++ ": ".toList ++ fault.message
  | replacement path fault =>
    "Failed to replace ".toList ++ path.text ++ ": ".toList ++ fault.message

/-- The wording of a failed reading. -/
def readMessage (path : Path) : FileFault → Text
  | .unknown => path.text ++ " not found".toList
  | fault => "Failed to read ".toList ++ path.text ++ ": ".toList ++ fault.message

end ExplicitInstantiation
