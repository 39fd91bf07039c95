import ExplicitInstantiation.Config.Toml
import ExplicitInstantiation.Config.Yaml
import ExplicitInstantiation.Files.Procedure

/-!
# Configuration files

A configuration file is written in YAML or in TOML, as its extension says. When no file is named,
the first one of three names that a directory has is taken. A configuration that was read is
checked before it is used.
-/

namespace ExplicitInstantiation

/-- Why there is no configuration. -/
inductive LoadFault where
  /-- The operating system does not say whether a file exists. -/
  | system (fault : FileFault)
  /-- The file cannot be read. -/
  | unreadable (path : Path) (fault : FileFault)
  /-- The file is not a configuration in TOML. -/
  | toml
  /-- The file is not a configuration in YAML. -/
  | yaml
  /-- The configuration is faulty. -/
  | invalid (fault : ConfigFault)
  deriving Repr, DecidableEq

namespace LoadFault

/-- What is said of a document that does not describe a configuration. -/
def malformed : Text := "the document does not describe a configuration".toList

/-- The wording of a fault. -/
def message : LoadFault → Text
  | system fault => "I/O error: ".toList ++ fault.message
  | unreadable path fault =>
    "Failed to access ".toList ++ path.text ++ ": ".toList ++ fault.message
  | toml => "TOML parsing error: ".toList ++ malformed
  | yaml => "YAML parsing error: ".toList ++ malformed
  | invalid fault => fault.message

/-- The wording of what a fault goes back to, if it goes back to something else. -/
def origin? : LoadFault → Option Text
  | system fault => some fault.message
  | unreadable _ fault => some fault.message
  | toml => some malformed
  | yaml => some malformed
  | invalid _ => none

end LoadFault

namespace Config

/-- The configuration, if it passes the check. -/
def checked (config : Config) : Except LoadFault Config :=
  match config.check with
  | .ok () => .ok config
  | .error fault => .error (.invalid fault)

/-- The configuration in a TOML document. -/
def ofToml (content : Text) : Except LoadFault Config :=
  match ofToml? content with
  | some config => config.checked
  | none => .error .toml

/-- The configuration in a YAML document. -/
def ofYaml (content : Text) : Except LoadFault Config :=
  match ofYaml? content with
  | some config => config.checked
  | none => .error .yaml

/-- The configuration in a file with the given content, in the format that its extension names. -/
def ofContent (path : Path) (content : Text) : Except LoadFault Config :=
  let extension := path.extension?.getD []
  if extension = "yaml".toList ∨ extension = "yml".toList then ofYaml content
  else if extension = "toml".toList then ofToml content
  else .error (.invalid (.unsupportedFormat extension path))

/-- Loads a configuration file. -/
def load (path : Path) : Procedure (Except LoadFault Config) :=
  .read path fun
    | .ok content => .done (ofContent path content)
    | .error fault => .done (.error (.unreadable path fault))

/-- The names of configuration files, in the order in which they are looked for. -/
def fileNames : List Text :=
  ["templinst.yaml".toList, "templinst.yml".toList, "templinst.toml".toList]

/-- Loads the first of the named files that the directory `root` has. -/
def loadFirst (root : Path) : List Text → Procedure (Except LoadFault (Path × Config))
  | [] => .done (.error (.invalid (.noneFound root fileNames)))
  | name :: names =>
    let path := root.under ⟨name⟩
    .probe path fun
      | .error fault => .done (.error (.system fault))
      | .ok true => (load path).bind fun loaded => .done (loaded.map (path, ·))
      | .ok false => loadFirst root names

/-- Finds and loads the configuration file of a directory. -/
def discover (root : Path) : Procedure (Except LoadFault (Path × Config)) :=
  loadFirst root fileNames

end Config

end ExplicitInstantiation
