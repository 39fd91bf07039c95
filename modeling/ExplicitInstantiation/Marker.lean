import ExplicitInstantiation.Text.Blank
import ExplicitInstantiation.Text.Quoted

/-!
# Markers

The marker is the line that starts a generated block. It has to be a `//` comment with something in
it, on one line, so that the compiler does not see it and the next run finds it again.
-/

namespace ExplicitInstantiation

/-- The marker that is used when none is given. -/
def defaultMarker : Text := "// Generated with 'templinst'".toList

/-- What is wrong with a marker. -/
inductive MarkerFault where
  /-- The marker is no comment, or an empty one. -/
  | notComment (marker : Text)
  /-- The marker has more than one line. -/
  | severalLines
  deriving Repr, DecidableEq

/-- The message for a faulty marker. -/
def MarkerFault.message : MarkerFault → Text
  | notComment marker =>
    "marker must be a non-empty '//' comment, got ".toList ++ marker.quote
  | severalLines => "marker must fit on a single line".toList

/-- Whether a marker is a `//` comment with something in it. -/
def isComment (marker : Text) : Bool :=
  ['/', '/'].isPrefixOf marker.trim && 2 < marker.trim.length

/-- Checks a marker. -/
def checkMarker (marker : Text) : Except MarkerFault Unit :=
  if !isComment marker then .error (.notComment marker)
  else if marker.contains '\n' then .error .severalLines
  else .ok ()

end ExplicitInstantiation
