import ExplicitInstantiation.Config.Basic
import ExplicitInstantiation.Files.Fault
import ExplicitInstantiation.Instantiation.Resolve

/-!
# Tasks

A task is a pipeline to be run in one of three ways: the target is brought up to date, or it is
only checked to be so, or what it would become is only computed. A run ends in a report or in the
first fault that was met.
-/

namespace ExplicitInstantiation

/-- What is done with a target that is not up to date. -/
inductive Mode where
  /-- It is replaced. -/
  | update
  /-- It is a fault. -/
  | check
  /-- It is reported. -/
  | preview
  deriving Repr, DecidableEq

/-- A pipeline to be run. -/
structure Task where
  /-- The files. -/
  pipeline : Pipeline
  /-- The line that starts the generated block. -/
  marker : Text
  /-- What is done with the target. -/
  mode : Mode
  deriving Repr, DecidableEq

/-- Something a task cannot do without. -/
inductive RequiredField where
  | declarations
  | usages
  | target
  deriving Repr, DecidableEq

/-- The wording of a required field. -/
def RequiredField.message : RequiredField → Text
  | declarations => "declarations file path".toList
  | usages => "at least one usage file".toList
  | target => "target file path".toList

/-- Why a task failed. -/
inductive TaskFault where
  /-- Something is not given. -/
  | missing (field : RequiredField)
  /-- The marker is faulty. -/
  | marker (fault : MarkerFault)
  /-- A file cannot be read. -/
  | unreadable (path : Path) (fault : FileFault)
  /-- The target cannot be replaced. -/
  | unwritable (fault : WriteFault)
  /-- A site passes too few arguments. -/
  | tooFewArguments (fault : TooFewArguments)
  /-- An argument has no value. -/
  | unfoldable (fault : Unfoldable)
  /-- The target was to be checked and is not up to date. -/
  | outOfDate (target : Path)
  deriving Repr

/-- The wording of a fault. -/
def TaskFault.message : TaskFault → Text
  | missing field => "Validation error: Missing required field: ".toList ++ field.message
  | marker fault =>
    "Validation error: Invalid marker: ".toList ++ (ConfigFault.marker fault).message
  | unreadable path fault => "Storage error: ".toList ++ readMessage path fault
  | unwritable fault => "Storage error: ".toList ++ fault.message
  | tooFewArguments fault => fault.message
  | unfoldable fault => fault.message
  | outOfDate target => "Target ".toList ++ target.text ++ " is out of date".toList

/-- How a target stands at the end of a run. -/
inductive Status where
  /-- It was replaced. -/
  | updated
  /-- It was already up to date. -/
  | unchanged
  /-- It is not up to date and was left as it is. -/
  | outOfDate
  deriving Repr, DecidableEq

/-- What a run found and did. -/
structure Report where
  /-- The target. -/
  target : Path
  /-- The number of template classes declared. -/
  classes : Nat
  /-- The number of constants defined in the usage files. -/
  constants : Nat
  /-- The number of instantiation sites. -/
  sites : Nat
  /-- The declarations of the block. -/
  declarations : List Text
  /-- How the target stands. -/
  status : Status
  deriving Repr, DecidableEq

/-- Checks that a task is complete. -/
def Task.check (task : Task) : Except TaskFault Unit :=
  if task.pipeline.declarations.isEmpty then .error (.missing .declarations)
  else if task.pipeline.usages.isEmpty then .error (.missing .usages)
  else if task.pipeline.target.isEmpty then .error (.missing .target)
  else (checkMarker task.marker).mapError .marker

end ExplicitInstantiation
