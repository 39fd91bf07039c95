import ExplicitInstantiation.Config.Basic
import ExplicitInstantiation.Yaml.Node

/-!
# Configurations in YAML

The marker is the scalar `marker`, and the pipelines are the sequence `pipeline`, which may also be
called `pipelines`. Every scalar counts as a string, whatever else it could stand for. Keys with
other names are ignored. A missing node counts as an empty sequence or as an empty mapping.
-/

namespace ExplicitInstantiation

namespace Yaml

namespace Document

/-- The content of a scalar. -/
def text (document : Document) (node : Node) : DocumentM Text := do
  match ← document.resolve node with
  | .scalar _ content => return content
  | _ => failure

/-- The items of a sequence. -/
def items (document : Document) (node : Node) : DocumentM (List Node) := do
  match ← document.resolve node with
  | .sequence items => return items
  | .scalar true [] => return []
  | _ => failure

/-- The pairs of a mapping. -/
def pairs (document : Document) (node : Node) : DocumentM (List (Node × Node)) := do
  match ← document.resolve node with
  | .mapping pairs => return pairs
  | .scalar true [] => return []
  | _ => failure

/-- The values of the known keys of a mapping, one of the lists of `names` for each of them. All
keys are scalars, and no known key stands twice, also not under another of its names. -/
def fields (document : Document) (names : List (List Text)) (node : Node) :
    DocumentM (List (Option Node)) := do
  let keyed ← (← document.pairs node).mapM fun (key, value) => do
    return (← document.text key, value)
  names.mapM fun aliases =>
    match keyed.filter fun (key, _) => aliases.contains key with
    | [] => return none
    | [(_, value)] => return some value
    | _ => failure

/-- The path that a scalar names. -/
def path (document : Document) (node : Node) : DocumentM Path := do
  return ⟨← document.text node⟩

/-- The paths that a sequence names. -/
def paths (document : Document) (node : Node) : DocumentM (List Path) := do
  (← document.items node).mapM document.path

/-- A pipeline, all parts of which have to be there. -/
def pipeline (document : Document) (node : Node) : DocumentM Pipeline := do
  let names := [["declarations".toList], ["usages".toList], ["target".toList]]
  match ← document.fields names node with
  | [some declarations, some usages, some target] =>
    return ⟨← document.path declarations, ← document.paths usages, ← document.path target⟩
  | _ => failure

/-- The pipelines of a sequence. -/
def pipelines (document : Document) (node : Node) : DocumentM (List Pipeline) := do
  (← document.items node).mapM document.pipeline

/-- The configuration, parts of which may be missing. -/
def config (document : Document) : DocumentM Config := do
  let names := [["marker".toList], ["pipeline".toList, "pipelines".toList]]
  match ← document.fields names document.root with
  | [marker?, pipelines?] =>
    let marker ← (marker?.map document.text).getD (pure defaultMarker)
    let pipelines ← (pipelines?.map document.pipelines).getD (pure [])
    return ⟨marker, pipelines⟩
  | _ => failure

end Document

end Yaml

namespace Config

/-- The configuration that a YAML document holds. -/
def ofYaml? (content : Text) : Option Config := do
  match ← Yaml.read? content with
  | some document => document.config.run' document.aliasLimit
  | none => some .empty

end Config

end ExplicitInstantiation
