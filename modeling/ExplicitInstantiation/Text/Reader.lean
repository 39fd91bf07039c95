import ExplicitInstantiation.Text.Basic

/-!
# Readers

A reader takes something off the front of a text or fails. Readers are combined as a monad whose
state is what is left of the text.
-/

namespace ExplicitInstantiation

/-- Takes a value off the front of a text, or fails. -/
abbrev Reader := StateT Text Option

namespace Reader

/-- What is left of the text. -/
def rest : Reader Text := get

/-- Leaves a given text to be read. -/
def leave (t : Text) : Reader Unit := set t

/-- The next character, which is not taken. -/
def peek? : Reader (Option Char) := do return (← rest).head?

/-- Takes one character. -/
def char : Reader Char := do
  match ← rest with
  | c :: after => leave after; return c
  | [] => failure

/-- Takes one character that satisfies `p`. -/
def satisfy (p : Char → Bool) : Reader Char := do
  let c ← char
  if p c then return c else failure

/-- Takes the given character. -/
def expect (c : Char) : Reader Unit := do
  let _ ← satisfy (· == c)

/-- Takes the longest run of characters that satisfy `p`. -/
def span (p : Char → Bool) : Reader Text := do
  let t ← rest
  leave (t.dropWhile p)
  return t.takeWhile p

/-- Takes the given text if it is next. -/
def skip? (expected : Text) : Reader Bool := do
  let t ← rest
  if expected.isPrefixOf t then leave (t.drop expected.length); return true
  else return false

/-- Whether nothing is left. -/
def atEnd : Reader Bool := do return (← rest).isEmpty

end Reader

end ExplicitInstantiation
