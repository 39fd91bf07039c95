import ExplicitInstantiation.Text.Blank
import ExplicitInstantiation.Text.Search

/-!
# Lines of code

Sources are read line by line, and of a line only its code counts: what stands before a `//`
comment, without the blanks around it. Lines without code are passed over, but they are counted,
so that a line of code keeps the number it has in its file.
-/

namespace ExplicitInstantiation

/-- The code on a line: what stands before the first `//`, trimmed. -/
def codeOf (line : Text) : Text :=
  match line.cutAtFirst ['/', '/'] with
  | some (code, _) => code.trim
  | none => line.trim

/-- A line that has code on it. -/
structure CodeLine where
  /-- The number of the line in its file, from 1. -/
  number : Nat
  /-- The code on the line; never empty. -/
  code : Text
  deriving Repr, DecidableEq

/-- The lines with code, of lines numbered from `number` on. -/
def codeLinesFrom (number : Nat) : List Text → List CodeLine
  | [] => []
  | line :: lines =>
    if (codeOf line).isEmpty then codeLinesFrom (number + 1) lines
    else ⟨number, codeOf line⟩ :: codeLinesFrom (number + 1) lines

/-- The lines with code of a file. Lines end at a newline; a carriage return before it is a blank
and goes with the trimming. -/
def codeLines (content : Text) : List CodeLine :=
  codeLinesFrom 1 (content.splitOn '\n')

end ExplicitInstantiation
