import ExplicitInstantiation.Constant.Basic
import ExplicitInstantiation.Text.Blank

/-!
# Constants defined on a line

Three shapes of definition are recognised: a macro `#define NAME VALUE`, an alias
`using NAME = VALUE;`, and a `const` or `constexpr` variable, initialised with `= VALUE;` or with
`{VALUE};`. `Constant.ofLine?` reads one line and yields a constant whose name and value are not
empty.
-/

namespace ExplicitInstantiation

namespace Constant

/-- A constant, unless its name or its value is empty. -/
def ofParts? (name value : Text) : Option Constant :=
  if name.isEmpty || value.isEmpty then none else some ⟨name, value⟩

/-- The macro defined by the words after `#define`. A macro with parameters and a macro without a
value are no constants; of the value only its first word counts. -/
def ofMacro? : List Text → Option Constant
  | name :: value :: _ => if name.contains '(' then none else ofParts? name value
  | _ => none

/-- The constant defined by `before = after`: its name is the last word before the equals sign,
and its value extends to the last semicolon. -/
def ofAssignment? (before after : Text) : Option Constant := do
  let name ← before.words.getLast?
  let value ← after.beforeLastChar ';'
  ofParts? name value.trim

/-- What stands before the last closing brace, on this line of text, that a semicolon follows,
possibly after blanks. -/
def beforeClosingBrace? : Text → Option Text
  | [] => none
  | c :: rest =>
    if c = '\n' then none
    else
      match beforeClosingBrace? rest with
      | some value => some (c :: value)
      | none => if c = '}' && (Text.trimStart rest).head? == some ';' then some [] else none

/-- The constant defined by `before {after`. -/
def ofBraces? (before after : Text) : Option Constant := do
  let name ← before.words.getLast?
  let value ← beforeClosingBrace? after
  ofParts? name value.trim

/-- The constant that a line defines. -/
def ofLine? (line : Text) : Option Constant :=
  let words := line.words
  if words.head? = some "#define".toList then ofMacro? words.tail
  else if !line.contains ';' then none
  else if words.contains "using".toList then do
    let (before, after) ← line.cutAtChar '='
    ofAssignment? before after
  else if words.contains "const".toList || words.contains "constexpr".toList then
    match line.cutAtChar '=' with
    | some (before, after) => ofAssignment? before after
    | none => do
      let (before, after) ← line.cutAtChar '{'
      ofBraces? before after
  else none

/-- A constant read from a line has a name and a value. -/
theorem ne_nil_of_ofParts? {name value : Text} {constant : Constant}
    (h : ofParts? name value = some constant) : constant.name ≠ [] ∧ constant.value ≠ [] := by
  rw [ofParts?] at h
  split at h
  · simp at h
  · obtain rfl := by simpa using h
    simp_all

end Constant

namespace Constants

/-- Takes in the constant that a line defines, if there is one. -/
def observe (constants : Constants) (line : Text) : Constants :=
  match Constant.ofLine? line with
  | some constant => constants.define constant
  | none => constants

end Constants

end ExplicitInstantiation
