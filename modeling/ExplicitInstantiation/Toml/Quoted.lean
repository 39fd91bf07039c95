import ExplicitInstantiation.Arithmetic.Number
import ExplicitInstantiation.Text.Reader

/-!
# Strings of a TOML document

A string stands between double quotation marks, with escapes, or between single ones, as it is.
Three marks instead of one allow it to extend over several lines; a line break right after the
opening marks does not count, and every other one counts as a newline.
-/

namespace ExplicitInstantiation

namespace Toml

/-- Whether `c` may stand in a comment or, escapes and marks apart, in a string. -/
def isPlain (c : Char) : Bool :=
  c == '\t' || (0x20 ≤ c.toNat && c.toNat != 0x7F)

/-- The number that exactly `width` hexadecimal digits stand for. -/
def readHex (width : Nat) : Reader Nat := do
  let t ← Reader.rest
  if t.length < width then failure
  match Number.hexDigits? (t.take width) with
  | some n => Reader.leave (t.drop width); return n
  | none => failure

/-- The character with a given code point, if there is one. -/
def charOf (n : Nat) : Reader Char :=
  if n.isValidChar then return Char.ofNat n else failure

/-- The character that an escape stands for, its backslash having been taken. -/
def readEscape : Reader Char := do
  match ← Reader.char with
  | 'b' => return Char.ofNat 8
  | 't' => return '\t'
  | 'n' => return '\n'
  | 'f' => return Char.ofNat 12
  | 'r' => return '\r'
  | '"' => return '"'
  | '\\' => return '\\'
  | 'u' => charOf (← readHex 4)
  | 'U' => charOf (← readHex 8)
  | _ => failure

/-- Takes a line break, if one is next. -/
def newline? : Reader Bool := do
  if ← Reader.skip? ['\n'] then return true
  else Reader.skip? ['\r', '\n']

/-- The rest of a string on one line up to the given mark, of at most `fuel` characters. -/
def readLine (mark : Char) (escapes : Bool) : (fuel : Nat) → Reader Text
  | 0 => failure
  | fuel + 1 => do
    let c ← Reader.char
    if c = mark then return []
    else if c = '\\' ∧ escapes then
      let escaped ← readEscape
      return escaped :: (← readLine mark escapes fuel)
    else if isPlain c then return c :: (← readLine mark escapes fuel)
    else failure

/-- Takes blanks and line breaks, of which there are at most `fuel`. -/
def skipGap : (fuel : Nat) → Reader Unit
  | 0 => return
  | fuel + 1 => do
    let _ ← Reader.span fun c => c == ' ' || c == '\t'
    if ← newline? then skipGap fuel else return

/-- Takes what follows a backslash at the end of a line: the blanks of that line, its end, and all
blanks and line breaks behind it. Fails if something else follows on the line. -/
def skipLineEnd : Reader Unit := do
  let _ ← Reader.span fun c => c == ' ' || c == '\t'
  if ← newline? then skipGap (← Reader.rest).length else failure

/-- The rest of a string over several lines up to three marks, of at most `fuel` characters. Up to
two marks in front of the closing ones belong to the string. -/
def readLines (mark : Char) (escapes : Bool) : (fuel : Nat) → Reader Text
  | 0 => failure
  | fuel + 1 => do
    if ← Reader.skip? [mark, mark, mark] then
      let extra := ((← Reader.rest).takeWhile (· == mark)).length
      if 2 < extra then failure
      Reader.leave ((← Reader.rest).drop extra)
      return List.replicate extra mark
    else if ← newline? then return '\n' :: (← readLines mark escapes fuel)
    else
      let c ← Reader.char
      if c = '\\' ∧ escapes then
        let next ← Reader.peek?
        if next.any fun c => c == ' ' || c == '\t' || c == '\n' || c == '\r' then
          skipLineEnd
          readLines mark escapes fuel
        else
          let escaped ← readEscape
          return escaped :: (← readLines mark escapes fuel)
      else if isPlain c then return c :: (← readLines mark escapes fuel)
      else failure

/-- A string on one line whose opening mark is next. -/
def readShortString : Reader Text := do
  let mark ← Reader.satisfy fun c => c == '"' || c == '\''
  readLine mark (mark == '"') ((← Reader.rest).length + 1)

/-- A string whose opening mark is next. -/
def readString : Reader Text := do
  let mark := ((← Reader.rest).head?).getD ' '
  if ← Reader.skip? [mark, mark, mark] then
    let _ ← newline?
    readLines mark (mark == '"') ((← Reader.rest).length + 1)
  else readShortString

end Toml

end ExplicitInstantiation
