import ExplicitInstantiation.Source.Nesting
import ExplicitInstantiation.Text.Blank

/-!
# Argument lists

The text between the angle brackets of an instantiation is captured as it stands and then
normalised: the arguments are separated by a comma alone, and inside an argument each run of
blanks becomes one space.
-/

namespace ExplicitInstantiation

/-- The text between the angle brackets that open `rest`, possibly after blanks. -/
def argumentList? (rest : Text) : Option Text :=
  match rest.trimStart with
  | '<' :: inner => (cutAtClosingAngle inner).map Prod.fst
  | _ => none

/-- An argument without outer blanks and with single spaces inside. -/
def normalizeArgument (argument : Text) : Text :=
  Text.join [' '] argument.words

/-- An argument list with each argument normalised. -/
def normalizeArguments (arguments : Text) : Text :=
  Text.join [','] ((topLevelParts arguments).map normalizeArgument)

/-- The number of arguments in a list; the empty list passes none. -/
def argumentCount (arguments : Text) : Nat :=
  if arguments.isEmpty then 0 else (topLevelParts arguments).length

end ExplicitInstantiation
