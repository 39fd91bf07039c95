import ExplicitInstantiation.Marker
import ExplicitInstantiation.Path

/-!
# Configurations

A configuration lists pipelines. A pipeline reads the template classes that a declarations file
declares, looks for their instantiations in usage files, and keeps the generated block of a target
file up to date. All pipelines of a configuration share one marker.

`Config.check` accepts a configuration that can be run: the marker is one, there are pipelines, no
path is missing, and no two pipelines write to the same file. It reports the first fault.
-/

namespace ExplicitInstantiation

/-- The files of one generated block. -/
structure Pipeline where
  /-- The file that declares the template classes. -/
  declarations : Path
  /-- The files that instantiate them. -/
  usages : List Path
  /-- The file that receives the block. -/
  target : Path
  deriving Repr, DecidableEq

/-- What is wrong with a pipeline taken by itself. -/
inductive PipelineFault where
  | emptyDeclarations
  | noUsages
  | emptyUsage
  | emptyTarget
  deriving Repr, DecidableEq

namespace PipelineFault

/-- The wording of a fault. -/
def message : PipelineFault → Text
  | emptyDeclarations => "declarations path cannot be empty".toList
  | noUsages => "at least one usage file is required".toList
  | emptyUsage => "usage paths cannot be empty".toList
  | emptyTarget => "target path cannot be empty".toList

end PipelineFault

namespace Pipeline

/-- The pipeline with its paths seen from `root`. -/
def under (root : Path) (pipeline : Pipeline) : Pipeline where
  declarations := root.under pipeline.declarations
  usages := pipeline.usages.map root.under
  target := root.under pipeline.target

/-- Checks a pipeline by itself. -/
def check (pipeline : Pipeline) : Except PipelineFault Unit :=
  if pipeline.declarations.isEmpty then .error .emptyDeclarations
  else if pipeline.usages.isEmpty then .error .noUsages
  else if pipeline.usages.any Path.isEmpty then .error .emptyUsage
  else if pipeline.target.isEmpty then .error .emptyTarget
  else .ok ()

end Pipeline

/-- A marker and pipelines. -/
structure Config where
  /-- The line that starts every generated block. -/
  marker : Text
  /-- The pipelines. -/
  pipelines : List Pipeline
  deriving Repr, DecidableEq

/-- What is wrong with a configuration. -/
inductive ConfigFault where
  /-- The marker is faulty. -/
  | marker (fault : MarkerFault)
  /-- There are no pipelines. -/
  | noPipelines
  /-- The pipeline with this index is faulty. -/
  | pipeline (index : Nat) (fault : PipelineFault)
  /-- Two pipelines, given by their indices, have the same target. -/
  | sharedTarget (first second : Nat) (target : Path)
  /-- The extension of the file names no format. -/
  | unsupportedFormat (extension : Text) (path : Path)
  /-- The directory has no configuration file. -/
  | noneFound (root : Path) (candidates : List Text)
  deriving Repr, DecidableEq

/-- The wording of a fault. -/
def ConfigFault.message (fault : ConfigFault) : Text :=
  "Configuration error: ".toList ++
    match fault with
    | marker fault => fault.message
    | noPipelines => "at least one pipeline must be configured".toList
    | pipeline index fault =>
      "pipeline ".toList ++ Text.ofNat index ++ ": ".toList ++ fault.message
    | sharedTarget first second target =>
      "pipelines ".toList ++ Text.ofNat first ++ " and ".toList ++ Text.ofNat second
        ++ " both write ".toList ++ target.text
    | unsupportedFormat extension path =>
      "Unsupported configuration format ".toList ++ extension.quote ++ " for ".toList ++ path.text
    | noneFound root candidates =>
      "No configuration file found in ".toList ++ root.text ++ " (looked for ".toList
        ++ Text.join ", ".toList candidates ++ [')']

namespace Config

/-- The configuration that says nothing. -/
def empty : Config := ⟨defaultMarker, []⟩

/-- Checks pipelines in order, when `earlier` ones have been checked: each one by itself and then
against those before it. -/
def checkPipelines (earlier : List Pipeline) : List Pipeline → Except ConfigFault Unit
  | [] => .ok ()
  | pipeline :: rest =>
    match pipeline.check with
    | .error fault => .error (.pipeline earlier.length fault)
    | .ok () =>
      match earlier.findIdx? (·.target.isSame pipeline.target) with
      | some first => .error (.sharedTarget first earlier.length pipeline.target)
      | none => checkPipelines (earlier ++ [pipeline]) rest

/-- Checks a configuration. -/
def check (config : Config) : Except ConfigFault Unit := do
  (checkMarker config.marker).mapError .marker
  if config.pipelines.isEmpty then throw .noPipelines
  checkPipelines [] config.pipelines

/-- The pipelines with their paths seen from `root`. -/
def pipelinesUnder (config : Config) (root : Path) : List Pipeline :=
  config.pipelines.map (Pipeline.under root)

end Config

end ExplicitInstantiation
