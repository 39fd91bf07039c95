import ExplicitInstantiation.Config.Basic
import ExplicitInstantiation.Toml.Document

/-!
# Configurations in TOML

The marker is the string `marker`, and the pipelines are the tables `pipeline`, which may also be
called `pipelines`. Keys with other names are ignored. A pipeline may also be written as an array
of its three parts in order.
-/

namespace ExplicitInstantiation

namespace Toml

/-- The content of a string. -/
def Item.text? : Item → Option Text
  | string content => some content
  | _ => none

/-- The item of a key. -/
def Entries.get? (entries : Entries) (key : String) : Option Item :=
  (entries.find? (·.1 == key.toList)).map Prod.snd

/-- The path that a string names. -/
def Item.path? (item : Item) : Option Path :=
  item.text?.map Path.mk

/-- The paths that an array of strings names. -/
def Item.paths? : Item → Option (List Path)
  | array items => items.mapM Item.path?
  | _ => none

/-- A pipeline given by its parts. -/
def pipelineOf? (declarations usages target : Item) : Option Pipeline := do
  return ⟨← declarations.path?, ← usages.paths?, ← target.path?⟩

/-- A pipeline given by a table. -/
def Entries.pipeline? (entries : Entries) : Option Pipeline := do
  pipelineOf? (← entries.get? "declarations") (← entries.get? "usages") (← entries.get? "target")

/-- A pipeline. -/
def Item.pipeline? : Item → Option Pipeline
  | braces entries => Entries.pipeline? entries
  | table _ entries => Entries.pipeline? entries
  | array (declarations :: usages :: target :: _) => pipelineOf? declarations usages target
  | _ => none

/-- The pipelines of an array. -/
def Item.pipelines? : Item → Option (List Pipeline)
  | array items => items.mapM Item.pipeline?
  | tables items => items.mapM Entries.pipeline?
  | _ => none

/-- The configuration in a table. -/
def Entries.config? (entries : Entries) : Option Config := do
  let marker ←
    match entries.get? "marker" with
    | some item => item.text?
    | none => some defaultMarker
  let pipelines ←
    match entries.get? "pipeline", entries.get? "pipelines" with
    | none, none => some []
    | some item, none | none, some item => item.pipelines?
    | some _, some _ => none
  return ⟨marker, pipelines⟩

end Toml

namespace Config

/-- The configuration that a TOML document holds. -/
def ofToml? (content : Text) : Option Config := do
  let entries ← Toml.read? content
  entries.config?

end Config

end ExplicitInstantiation
