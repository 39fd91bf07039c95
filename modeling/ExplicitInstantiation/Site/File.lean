import ExplicitInstantiation.Constant.Line
import ExplicitInstantiation.Site.Line
import ExplicitInstantiation.Source.Line

/-!
# Instantiation sites and constants of a file

A file that uses template classes is read once, line by line: each line is first searched for
sites and then for a constant. The first line with a faulty site ends the reading of the file; the
constants of the lines before it are kept.
-/

namespace ExplicitInstantiation

/-- What reading a file yields: its sites, or the first fault, and the constants known at the end
of the reading. -/
structure FileSurvey where
  /-- The sites in the order of the file, or the first fault. -/
  sites : Except TooFewArguments (List Site)
  /-- The constants, those known before the file included. -/
  constants : Constants

/-- Reads lines of code of the file `path`. -/
def surveyLines (classes : List TemplateClass) (path : Path) (constants : Constants) :
    List CodeLine → FileSurvey
  | [] => ⟨.ok [], constants⟩
  | line :: lines =>
    match sitesOnLine classes line.code ⟨path, line.number⟩ with
    | .error fault => ⟨.error fault, constants⟩
    | .ok sites =>
      let survey := surveyLines classes path (constants.observe line.code) lines
      ⟨survey.sites.map (sites ++ ·), survey.constants⟩

/-- Reads a file. -/
def surveyFile (classes : List TemplateClass) (constants : Constants) (path : Path)
    (content : Text) : FileSurvey :=
  surveyLines classes path constants (codeLines content)

end ExplicitInstantiation
