import ExplicitInstantiation.Source.Line
import ExplicitInstantiation.Source.Nesting
import ExplicitInstantiation.TemplateClass.Basic

/-!
# Template classes declared in a header

A header is read line by line. A line may carry a template head, the word `template` with its
parameter list; the class it introduces is named on the same line or, failing that, on the next
line of code. A head that neither names a class is that of something else and is dropped.

`declaredClasses` lists the classes of a header in the order in which they are first declared: a
later declaration of a name that is already known, such as a specialisation, adds nothing.
-/

namespace ExplicitInstantiation

/-- A template head, `template<parameters>`. -/
structure TemplateHead where
  /-- The number of parameters without a default. -/
  required : Nat
  /-- What follows the parameter list on the line. -/
  rest : Text
  deriving Repr, DecidableEq

namespace TemplateHead

/-- The number of parameters that an instantiation has to pass: the parameters, less one for each
equals sign in the list. -/
def requiredCount (parameters : Text) : Nat :=
  if parameters.allBlank then 0
  else topLevelCommas parameters + 1 - parameters.count '='

/-- The template head on a line. A parameter list that is not closed on the line extends to its
end. -/
def ofLine? (line : Text) : Option TemplateHead :=
  match (line.afterWord? "template".toList).map Text.trimStart with
  | some ('<' :: inner) =>
    match cutAtClosingAngle inner with
    | some (parameters, rest) => some ⟨requiredCount parameters, rest⟩
    | none => some ⟨requiredCount inner, []⟩
  | _ => none

end TemplateHead

/-! ### Class names -/

/-- Whether `c` ends the name of a class. -/
def endsClassName (c : Char) : Bool :=
  isBlank c || c == '{' || c == ':' || c == ';' || c == '<'

/-- The name after the first occurrence of `keyword` that is a word. A blank has to separate the
two, and the name is not empty. -/
def nameAfter? (keyword line : Text) : Option Text :=
  match line.afterWord? keyword with
  | some (c :: rest) =>
    if isBlank c then
      let name := (Text.trimStart rest).takeWhile fun c => !endsClassName c
      if name.isEmpty then none else some name
    else none
  | _ => none

/-- The class that a line names: the one after `class` if there is one, else the one after
`struct`. -/
def namedClass? (line : Text) : Option Text :=
  ["class".toList, "struct".toList].findSome? fun keyword => nameAfter? keyword line

/-! ### Headers -/

/-- Where the reading of a header stands. -/
structure HeaderReading where
  /-- The count of a template head that has not met its class yet. -/
  pending : Option Nat
  /-- The classes declared so far. -/
  classes : List TemplateClass
  deriving Repr, DecidableEq

namespace HeaderReading

/-- Nothing has been read. -/
def empty : HeaderReading := ⟨none, []⟩

/-- Adds a class unless its name is already known. -/
def declare (reading : HeaderReading) (name : Text) (required : Nat) : HeaderReading :=
  if reading.classes.any (·.name == name) then reading
  else { reading with classes := reading.classes ++ [⟨name, required⟩] }

/-- Gives the pending template head the class named on this line, if there is one; either way the
head is no longer pending. -/
def settle (reading : HeaderReading) (line : Text) : HeaderReading :=
  match reading.pending, namedClass? line with
  | some required, some name => declare { reading with pending := none } name required
  | _, _ => { reading with pending := none }

/-- Takes in the template head on a line, with the class named behind it or else as pending. -/
def introduce (reading : HeaderReading) (line : Text) : HeaderReading :=
  match TemplateHead.ofLine? line with
  | none => reading
  | some head =>
    match namedClass? head.rest with
    | some name => reading.declare name head.required
    | none => { reading with pending := some head.required }

/-- Reads one line of code. -/
def step (reading : HeaderReading) (line : Text) : HeaderReading :=
  (reading.settle line).introduce line

/-- Reads lines of code in order. -/
def ofLines (lines : List CodeLine) : HeaderReading :=
  lines.foldl (fun reading line => reading.step line.code) empty

end HeaderReading

/-- The template classes that a header declares, in order of their first declarations. -/
def declaredClasses (header : Text) : List TemplateClass :=
  (HeaderReading.ofLines (codeLines header)).classes

end ExplicitInstantiation
