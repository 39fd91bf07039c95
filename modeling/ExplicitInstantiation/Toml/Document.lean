import ExplicitInstantiation.Toml.Quoted
import ExplicitInstantiation.Toml.Scalar
import ExplicitInstantiation.Toml.Table

/-!
# Reading a TOML document

A document consists of lines: headers, keys with their values, comments and empty lines. A value
may extend over several lines where it is an array or a long string. `Toml.read?` yields the table
of the whole document, or nothing if the document is not well formed.

Values may be nested to a fixed depth.
-/

namespace ExplicitInstantiation

namespace Toml

/-- The depth to which arrays and tables between braces may be nested, and the length that a path
of keys may have. -/
def depthLimit : Nat := 79

/-- Takes blanks. -/
def skipBlanks : Reader Unit := do
  let _ ← Reader.span fun c => c == ' ' || c == '\t'

/-- Takes a comment, if one is next. -/
def skipComment : Reader Unit := do
  if ← Reader.skip? ['#'] then
    let _ ← Reader.span isPlain

/-- Takes blanks, comments and line breaks, of which there are at most `fuel`. -/
def skipFiller : (fuel : Nat) → Reader Unit
  | 0 => return
  | fuel + 1 => do
    skipBlanks
    skipComment
    if ← newline? then skipFiller fuel else return

/-- Takes blanks, comments and line breaks. -/
def skipAllFiller : Reader Unit := do
  skipFiller ((← Reader.rest).length + 1)

/-- Takes what may follow on a line that is complete. -/
def finishLine : Reader Unit := do
  skipBlanks
  skipComment
  if ← Reader.atEnd then return
  else if ← newline? then return
  else failure

/-- Whether `c` may stand in a key without quotation marks. -/
def isBareKeyChar (c : Char) : Bool :=
  c.isAlphanum || c == '_' || c == '-'

/-- One key. -/
def readKey : Reader Text := do
  match ← Reader.peek? with
  | some '"' | some '\'' => readShortString
  | _ =>
    let key ← Reader.span isBareKeyChar
    if key.isEmpty then failure else return key

/-- A path of keys with dots between them, of at most `fuel` keys. -/
def readPath : (fuel : Nat) → Reader (List Text)
  | 0 => failure
  | fuel + 1 => do
    skipBlanks
    let key ← readKey
    skipBlanks
    if ← Reader.skip? ['.'] then return key :: (← readPath fuel)
    else return [key]

/-- Whether `c` may stand in a scalar other than a string. -/
def isScalarChar (c : Char) : Bool :=
  c.isAlphanum || c == '_' || c == '+' || c == '-' || c == '.' || c == ':'

/-- A scalar other than a string. A date and a time may also have a space between them. -/
def readScalar : Reader Item := do
  let first ← Reader.span isScalarChar
  match ← Reader.rest with
  | ' ' :: c :: after =>
    if isDate first && c.isDigit then
      Reader.leave (c :: after)
      let time ← Reader.span isScalarChar
      if isOffsetTime time then return .scalar else failure
    else if isScalar first then return .scalar
    else failure
  | _ => if isScalar first then return .scalar else failure

mutual

/-- A value, with at most `depth` arrays and tables between braces around each other. -/
def readValue (depth : Nat) : Reader Item := do
  match ← Reader.peek? with
  | some '"' | some '\'' => return .string (← readString)
  | some '[' =>
    match depth with
    | 0 => failure
    | depth + 1 =>
      Reader.expect '['
      return .array (← readItems depth (← Reader.rest).length)
  | some '{' =>
    match depth with
    | 0 => failure
    | depth + 1 =>
      Reader.expect '{'
      skipBlanks
      if ← Reader.skip? ['}'] then return .braces []
      else return .braces (← readPairs depth (← Reader.rest).length [])
  | _ => readScalar
termination_by (depth, 0)

/-- The items of an array whose opening bracket or last comma has been taken, of which there are
at most `fuel`. -/
def readItems (depth : Nat) (fuel : Nat) : Reader (List Item) := do
  match fuel with
  | 0 => failure
  | fuel + 1 =>
    skipAllFiller
    if ← Reader.skip? [']'] then return []
    else
      let item ← readValue depth
      skipAllFiller
      if ← Reader.skip? [','] then return item :: (← readItems depth fuel)
      else
        Reader.expect ']'
        return [item]
termination_by (depth, fuel + 1)

/-- The pairs of a table between braces, all on one line, added to `entries`. There are at most
`fuel` of them. -/
def readPairs (depth : Nat) (fuel : Nat) (entries : Entries) : Reader Entries := do
  match fuel with
  | 0 => failure
  | fuel + 1 =>
    let path ← readPath depthLimit
    Reader.expect '='
    skipBlanks
    let item ← readValue depth
    skipBlanks
    match entries.addDotted (path.getLastD []) item path.dropLast with
    | none => failure
    | some entries =>
      if ← Reader.skip? [','] then readPairs depth fuel entries
      else
        Reader.expect '}'
        return entries
termination_by (depth, fuel + 1)

end

/-- A document of which some lines have been read. -/
structure Document where
  /-- The table of the document. -/
  root : Entries
  /-- The path of the table to which the next lines belong. -/
  header : List Text

/-- Reads the header of a table, its first bracket having been taken. -/
def readHeader (document : Document) : Reader Document := do
  let repeated ← Reader.skip? ['[']
  let path ← readPath depthLimit
  Reader.expect ']'
  if repeated then Reader.expect ']'
  finishLine
  let above := path.dropLast
  let key := path.getLastD []
  let root :=
    if repeated then document.root.openTables above key else document.root.openTable above key
  match root with
  | some root => return ⟨root, path⟩
  | none => failure

/-- Reads a key with its value. -/
def readPair (document : Document) : Reader Document := do
  let path ← readPath depthLimit
  Reader.expect '='
  skipBlanks
  let item ← readValue depthLimit
  finishLine
  match document.root.within (·.addDotted (path.getLastD []) item path.dropLast)
    document.header with
  | some root => return ⟨root, document.header⟩
  | none => failure

/-- Reads the lines of a document, of which there are at most `fuel` that are not empty. -/
def readDocument (document : Document) : (fuel : Nat) → Reader Document
  | 0 => return document
  | fuel + 1 => do
    skipAllFiller
    match ← Reader.peek? with
    | none => return document
    | some '[' =>
      Reader.expect '['
      readDocument (← readHeader document) fuel
    | some _ => readDocument (← readPair document) fuel

/-- The table of a document. A byte order mark in front of it does not count. -/
def read? (content : Text) : Option Entries := do
  let body := if content.head? = some (Char.ofNat 0xFEFF) then content.tail else content
  let (document, rest) ← StateT.run (readDocument ⟨[], []⟩ (body.length + 1)) body
  if rest.isEmpty then some document.root else none

end Toml

end ExplicitInstantiation
