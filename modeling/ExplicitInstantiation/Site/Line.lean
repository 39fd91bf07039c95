import ExplicitInstantiation.Path
import ExplicitInstantiation.Site.Arguments
import ExplicitInstantiation.TemplateClass.Basic
import ExplicitInstantiation.Text.Search

/-!
# Instantiation sites on a line

A site is a place where the name of a known template class stands as a word and an argument list
follows. `sitesOnLine` searches a line for one class after the other, those with the longest names
first. Characters that were matched as the name of one class are taken and are not matched again
for another. The sites are returned in the order in which they stand on the line.

A site that passes fewer arguments than its class requires is an error, and the search ends there.
-/

namespace ExplicitInstantiation

/-- A line of a file. -/
structure Location where
  /-- The file. -/
  path : Path
  /-- The number of the line, from 1. -/
  line : Nat
  deriving Repr, DecidableEq

/-- The location as `path:line`. -/
def Location.toText (location : Location) : Text :=
  location.path.text ++ ':' :: Text.ofNat location.line

/-- A place where a template class is instantiated. -/
structure Site where
  /-- The class. -/
  templateClass : TemplateClass
  /-- The normalised argument list, as written. -/
  arguments : Text
  /-- Where the site was found. -/
  location : Location
  deriving Repr, DecidableEq

/-- A site passes fewer arguments than its class requires. -/
structure TooFewArguments where
  /-- The class, with the number of arguments it requires. -/
  templateClass : TemplateClass
  /-- The number of arguments that the site passes. -/
  found : Nat
  /-- Where the site is. -/
  location : Location
  /-- The code on that line. -/
  code : Text
  deriving Repr, DecidableEq

/-- The message for a site with too few arguments. -/
def TooFewArguments.message (fault : TooFewArguments) : Text :=
  "Template class usage cannot have fewer parameters than the template class definition (".toList
    ++ fault.templateClass.name ++ " requires ".toList ++ Text.ofNat fault.templateClass.required
    ++ ", found ".toList ++ Text.ofNat fault.found ++ ") at ".toList ++ fault.location.toText
    ++ ": ".toList ++ fault.code

/-- Columns of a line, from the first one up to the one before the last. -/
structure Span where
  /-- The first column. -/
  first : Nat
  /-- The column after the last one. -/
  stop : Nat
  deriving Repr, DecidableEq

/-- Whether two spans share a column. -/
def Span.overlaps (a b : Span) : Bool :=
  a.first < b.stop && b.first < a.stop

/-- Where the search of a line stands. -/
structure LineSearch where
  /-- The columns matched as names so far. -/
  taken : List Span
  /-- The sites found so far, with their columns, in the order of the search. -/
  found : List (Nat × Site)
  deriving Repr, DecidableEq

namespace LineSearch

/-- Nothing has been found. -/
def empty : LineSearch := ⟨[], []⟩

/-- Takes in one place where the name of `templateClass` stands as a word. -/
def visit (code : Text) (location : Location) (templateClass : TemplateClass)
    (search : LineSearch) (place : Text.Occurrence) : Except TooFewArguments LineSearch :=
  let span : Span := ⟨place.column, place.column + templateClass.name.length⟩
  if search.taken.any (·.overlaps span) then .ok search
  else
    let taken := span :: search.taken
    match argumentList? place.rest with
    | none => .ok { search with taken := taken }
    | some captured =>
      let arguments := normalizeArguments captured
      if argumentCount arguments < templateClass.required then
        .error ⟨templateClass, argumentCount arguments, location, code⟩
      else
        .ok ⟨taken, search.found ++ [(place.column, ⟨templateClass, arguments, location⟩)]⟩

/-- Searches a line for one class. -/
def searchClass (code : Text) (location : Location) (search : LineSearch)
    (templateClass : TemplateClass) : Except TooFewArguments LineSearch :=
  (code.wordOccurrences templateClass.name).foldlM (visit code location templateClass) search

end LineSearch

/-- The sites on a line of code, in the order in which they stand there. -/
def sitesOnLine (classes : List TemplateClass) (code : Text) (location : Location) :
    Except TooFewArguments (List Site) := do
  let search ←
    (TemplateClass.longestFirst classes).foldlM (LineSearch.searchClass code location) .empty
  return (search.found.mergeSort fun a b => a.1 ≤ b.1).map Prod.snd

end ExplicitInstantiation
