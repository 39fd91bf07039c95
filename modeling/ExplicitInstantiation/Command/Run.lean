import ExplicitInstantiation.Command.Arguments
import ExplicitInstantiation.Config.Load
import ExplicitInstantiation.Task.Json
import ExplicitInstantiation.Task.Run

/-!
# Running a command

A command is a procedure on files that ends in an outcome: an exit code and what is printed. It
first finds its tasks, in a configuration file or in its options, and runs them all; a task that
fails does not keep the others from running, but the command then fails as a whole.
-/

namespace ExplicitInstantiation

/-- What a program run ends with. -/
structure Outcome where
  /-- The exit code. -/
  code : Nat
  /-- What is printed. -/
  output : Text
  /-- What is printed on the error stream. -/
  errors : Text
  deriving Repr, DecidableEq

/-- Why a command could not start: what it tried to do, and why that failed, each cause going back
to the next one. -/
structure Failure where
  /-- What was tried. -/
  attempt : Text
  /-- The causes. -/
  causes : List Text
  deriving Repr, DecidableEq

namespace Failure

/-- The failure to use a configuration. -/
def ofLoad (attempt : Text) (fault : LoadFault) : Failure :=
  ⟨attempt, fault.message :: fault.origin?.toList⟩

/-- A cause, its first line behind `label` and its other lines indented by the width of it. -/
def causeText (label : Text) (cause : Text) : Text :=
  label ++ Text.join ('\n' :: List.replicate label.length ' ') (cause.splitOn '\n') ++ ['\n']

/-- The number in front of one of several causes. -/
def label (index : Nat) : Text :=
  let digits := Text.ofNat index
  List.replicate (5 - digits.length) ' ' ++ digits ++ ": ".toList

/-- The causes, which are numbered if there are several. -/
def causesText : List Text → Text
  | [] => []
  | [cause] => "\nCaused by:\n".toList ++ causeText "    ".toList cause
  | causes =>
    "\nCaused by:\n".toList
      ++ causes.zipIdx.flatMap fun (cause, index) => causeText (label index) cause

/-- The failure as it is printed. -/
def toText (failure : Failure) : Text :=
  "Error: ".toList ++ failure.attempt ++ ['\n'] ++ causesText failure.causes

/-- The outcome of a command that could not start. -/
def outcome (failure : Failure) : Outcome := ⟨1, [], failure.toText⟩

end Failure

/-! ### Tasks of a command -/

/-- The tasks of a configuration whose file is at `path`. Its paths are seen from the directory of
that file, unless another one is given. -/
def configTasks (inputs : Inputs) (mode : Mode) (path : Path) (config : Config) : List Task :=
  let root := (inputs.root <|> path.parent?).getD ⟨[]⟩
  let marker := inputs.marker.getD config.marker
  (config.pipelinesUnder root).map (⟨·, marker, mode⟩)

/-- Finds the tasks of a command and goes on with them. -/
def findTasks (workingDirectory : Path) (inputs : Inputs) (mode : Mode) :
    Procedure (Except Failure (List Task)) :=
  match inputs.declarations with
  | some declarations =>
    let pipeline : Pipeline := ⟨declarations, inputs.usages, inputs.target.getD ⟨[]⟩⟩
    .done (.ok [⟨pipeline.under (inputs.root.getD ⟨[]⟩), inputs.marker.getD defaultMarker, mode⟩])
  | none =>
    match inputs.config with
    | some path =>
      (Config.load path).bind fun loaded => .done <|
        (loaded.map (configTasks inputs mode path)).mapError
          (.ofLoad ("Failed to load configuration ".toList ++ path.text))
    | none =>
      (Config.discover (inputs.root.getD workingDirectory)).bind fun loaded => .done <|
        (loaded.map fun (path, config) => configTasks inputs mode path config).mapError
          (.ofLoad "Failed to find a templinst configuration".toList)

/-! ### Results -/

/-- The reports of tasks that all succeeded, or the faults of those that did not. -/
def collect : List (Except TaskFault Report) → Except (List TaskFault) (List Report)
  | [] => .ok []
  | .ok report :: results =>
    match collect results with
    | .ok reports => .ok (report :: reports)
    | .error faults => .error faults
  | .error fault :: results =>
    match collect results with
    | .ok _ => .error [fault]
    | .error faults => .error (fault :: faults)

/-- The outcome of a command of whose tasks some failed. -/
def failedOutcome (total : Nat) (faults : List TaskFault) : Outcome where
  code := 1
  output := []
  errors :=
    (faults.flatMap fun fault => "❌ ".toList ++ fault.message ++ ['\n'])
      ++ (Failure.mk (Text.ofNat faults.length ++ " of ".toList ++ Text.ofNat total
        ++ " pipeline(s) failed".toList) []).toText

/-- The words for a status. -/
def Status.words : Status → Text
  | updated => "updated".toList
  | unchanged => "unchanged".toList
  | outOfDate => "out of date".toList

/-- The line about a target that was brought up to date. -/
def Report.line (report : Report) : Text :=
  "  • ".toList ++ report.target.text ++ " (".toList ++ report.status.words ++ ", ".toList
    ++ Text.ofNat report.declarations.length ++ " instantiation(s))\n".toList

/-- The lines about what a target would receive. -/
def Report.listing (report : Report) : Text :=
  report.target.text ++ ":\n".toList
    ++ (if report.declarations.isEmpty then "  (no instantiations)\n".toList else [])
    ++ report.declarations.flatMap fun declaration => "  ".toList ++ declaration ++ ['\n']

/-- What a command prints when all its tasks succeeded. -/
def Command.output (command : Command) (reports : List Report) : Text :=
  match command with
  | generate _ _ =>
    reports.flatMap Report.line ++ "✅ Template classes instantiation done\n".toList
  | scan _ false => reports.flatMap Report.listing
  | scan _ true => (Json.array (reports.map Report.toJson)).pretty 0 ++ ['\n']

namespace Command

/-- What a command works on. -/
def inputs : Command → Inputs
  | generate inputs _ => inputs
  | scan inputs _ => inputs

/-- How a command runs its tasks. -/
def mode : Command → Mode
  | generate _ false => .update
  | generate _ true => .check
  | scan _ _ => .preview

/-- The outcome of a command, given the results of its tasks. -/
def outcome (command : Command) (results : List (Except TaskFault Report)) : Outcome :=
  match collect results with
  | .ok reports => ⟨0, command.output reports, []⟩
  | .error faults => failedOutcome results.length faults

/-- The steps of a command. -/
def steps (workingDirectory : Path) (command : Command) : Procedure Outcome :=
  (findTasks workingDirectory command.inputs command.mode).bind fun
    | .error failure => .done failure.outcome
    | .ok tasks =>
      (Procedure.sequence (tasks.map Task.steps)).bind fun results =>
        .done (command.outcome results)

end Command

/-! ### The program -/

/-- What the program says about its command line. -/
def usageText : Text :=
  ("Usage: templinst [-v | -q] <generate | scan> [OPTIONS]\n\n" ++
    "  --config <FILE>        configuration file\n" ++
    "  --root <DIR>           directory that relative paths are resolved against\n" ++
    "  --declarations <FILE>  declarations file of a single pipeline\n" ++
    "  --usage <FILE>         usage file of that pipeline (repeatable)\n" ++
    "  --target <FILE>        target file of that pipeline\n" ++
    "  --marker <COMMENT>     comment line that starts the generated block\n" ++
    "  --check                generate: fail if a target is out of date\n" ++
    "  --json                 scan: print a JSON report\n").toList

/-- The steps of the program. -/
def program (workingDirectory : Path) (arguments : List Text) : Procedure Outcome :=
  match parseArguments arguments with
  | some (.run command) => command.steps workingDirectory
  | some .version => .done ⟨0, "templinst 0.1.0\n".toList, []⟩
  | some .help => .done ⟨0, usageText, []⟩
  | none => .done ⟨2, [], usageText⟩

end ExplicitInstantiation
