import ExplicitInstantiation.Path

/-!
# Command-line arguments

There are two commands, `generate` and `scan`. Both take their pipelines from a configuration file
or from options. Options that take a value are written `--name value` or `--name=value`; a value
that starts with a hyphen has to be written in the second way. Only `--usage` may be repeated.

`parseArguments` fails on anything else, and does not say why: a command line that is not understood
ends with the same exit code whatever is wrong with it.
-/

namespace ExplicitInstantiation

/-- What a command works on. -/
structure Inputs where
  /-- The configuration file. -/
  config : Option Path
  /-- The directory from which paths are seen. -/
  root : Option Path
  /-- The declarations file of a pipeline given by options. -/
  declarations : Option Path
  /-- Its usage files. -/
  usages : List Path
  /-- Its target. -/
  target : Option Path
  /-- The marker. -/
  marker : Option Text
  deriving Repr, DecidableEq

namespace Inputs

/-- No options. -/
def none : Inputs := ⟨.none, .none, .none, [], .none, .none⟩

/-- A pipeline is given either completely or not at all. A configuration file takes the place of
the declarations file: the two exclude each other, and usage files and a target may be named beside
it, both or neither, although they then do not count. -/
def isConsistent (inputs : Inputs) : Bool :=
  match inputs.config, inputs.declarations with
  | some _, some _ => false
  | .none, .none => inputs.usages.isEmpty && inputs.target.isNone
  | .none, some _ => !inputs.usages.isEmpty && inputs.target.isSome
  | some _, .none => inputs.usages.isEmpty == inputs.target.isNone

end Inputs

/-- A command. -/
inductive Command where
  /-- Brings targets up to date, or checks that they are. -/
  | generate (inputs : Inputs) (check : Bool)
  /-- Shows what targets would receive, as text or as JSON. -/
  | scan (inputs : Inputs) (json : Bool)
  deriving Repr, DecidableEq

/-- What a command line asks for. -/
inductive Request where
  /-- A command. -/
  | run (command : Command)
  /-- The version of the program. -/
  | version
  /-- A description of the command line. -/
  | help
  deriving Repr, DecidableEq

/-- How much is logged. -/
structure Verbosity where
  verbose : Bool
  quiet : Bool
  deriving Repr, DecidableEq

namespace Verbosity

/-- Neither more nor less than usual. -/
def normal : Verbosity := ⟨false, false⟩

/-- More, unless that was asked for already. -/
def moreVerbose (verbosity : Verbosity) : Option Verbosity :=
  if verbosity.verbose then none else some { verbosity with verbose := true }

/-- Less, unless that was asked for already. -/
def moreQuiet (verbosity : Verbosity) : Option Verbosity :=
  if verbosity.quiet then none else some { verbosity with quiet := true }

/-- Not both more and less. -/
def isConsistent (verbosity : Verbosity) : Bool :=
  !(verbosity.verbose && verbosity.quiet)

end Verbosity

/-! ### Options -/

/-- The options of a command so far. -/
structure Options where
  /-- What the command works on. -/
  inputs : Inputs
  /-- Whether the one flag of the command, which is its own, is set. -/
  flag : Bool
  /-- How much is logged. -/
  verbosity : Verbosity
  deriving Repr, DecidableEq

namespace Options

/-- No options. -/
def none : Options := ⟨.none, false, .normal⟩

/-- A path that is given for the first time and is not empty. -/
def firstPath? (old : Option Path) (value : Text) : Option (Option Path) :=
  if old.isSome || value.isEmpty then .none else some (some ⟨value⟩)

/-- Sets an option that takes a value. -/
def assign (options : Options) (name value : Text) : Option Options := do
  let inputs := options.inputs
  let inputs ←
    if name == "config".toList then
      pure { inputs with config := ← firstPath? inputs.config value }
    else if name == "root".toList then
      pure { inputs with root := ← firstPath? inputs.root value }
    else if name == "declarations".toList then
      pure { inputs with declarations := ← firstPath? inputs.declarations value }
    else if name == "target".toList then
      pure { inputs with target := ← firstPath? inputs.target value }
    else if name == "usage".toList then
      if value.isEmpty then failure else pure { inputs with usages := inputs.usages ++ [⟨value⟩] }
    else if name == "marker".toList then
      if inputs.marker.isSome then failure else pure { inputs with marker := some value }
    else failure
  return { options with inputs := inputs }

/-- Whether an option takes a value. -/
def takesValue (name : Text) : Bool :=
  ["config", "root", "declarations", "target", "usage", "marker"].any (·.toList == name)

/-- Whether an argument is written like an option. -/
def looksLikeOption (argument : Text) : Bool :=
  argument.head? == some '-' && 1 < argument.length

/-- Sets the flags of an argument of single letters; `none` inside asks for help. -/
def assignLetters (options : Options) : Text → Option (Option Options)
  | [] => some (some options)
  | 'v' :: letters => do
    assignLetters { options with verbosity := ← options.verbosity.moreVerbose } letters
  | 'q' :: letters => do
    assignLetters { options with verbosity := ← options.verbosity.moreQuiet } letters
  | 'h' :: _ => some .none
  | _ => .none

/-- Sets a flag written with its name; `none` inside asks for help. -/
def assignFlag (options : Options) (own name : Text) : Option (Option Options) := do
  if name == "verbose".toList then
    return some { options with verbosity := ← options.verbosity.moreVerbose }
  else if name == "quiet".toList then
    return some { options with verbosity := ← options.verbosity.moreQuiet }
  else if name == own then
    if options.flag then failure else return some { options with flag := true }
  else if name == "help".toList then return .none
  else failure

/-- Reads the options of a command whose own flag is `own`; `none` inside asks for help. -/
def parse (own : Text) (options : Options) : List Text → Option (Option Options)
  | [] => some (some options)
  | ('-' :: '-' :: body) :: arguments =>
    match Text.cutAtChar '=' body with
    | some (name, value) => do parse own (← options.assign name value) arguments
    | .none =>
      if body.isEmpty then if arguments.isEmpty then some (some options) else .none
      else if takesValue body then
        match arguments with
        | value :: arguments =>
          if looksLikeOption value then .none
          else do parse own (← options.assign body value) arguments
        | [] => .none
      else
        match options.assignFlag own body with
        | some (some options) => parse own options arguments
        | some .none => some .none
        | .none => .none
  | ('-' :: letter :: letters) :: arguments =>
    match options.assignLetters (letter :: letters) with
    | some (some options) => parse own options arguments
    | some .none => some .none
    | .none => .none
  | _ => .none

end Options

/-! ### Command lines -/

/-- Reads a command whose name has been read. -/
def parseCommand (name : Text) (arguments : List Text) : Option Request := do
  let own ←
    if name == "generate".toList then pure "check".toList
    else if name == "scan".toList then pure "json".toList
    else failure
  match ← Options.none.parse own arguments with
  | none => return .help
  | some options =>
    if !options.inputs.isConsistent || !options.verbosity.isConsistent then failure
    if own == "check".toList then return .run (.generate options.inputs options.flag)
    else return .run (.scan options.inputs options.flag)

/-- Sets the flags of an argument of single letters in front of the command. A request for the
version or for help ends the reading. -/
def parseLetters (verbosity : Verbosity) : Text → Option (Verbosity ⊕ Request)
  | [] => some (.inl verbosity)
  | 'v' :: letters => do parseLetters (← verbosity.moreVerbose) letters
  | 'q' :: letters => do parseLetters (← verbosity.moreQuiet) letters
  | 'V' :: _ => some (.inr .version)
  | 'h' :: _ => some (.inr .help)
  | _ => none

/-- Sets a flag in front of the command. -/
def parseFlag (verbosity : Verbosity) (name : Text) : Option (Verbosity ⊕ Request) :=
  if name == "verbose".toList then verbosity.moreVerbose.map .inl
  else if name == "quiet".toList then verbosity.moreQuiet.map .inl
  else if name == "version".toList then some (.inr .version)
  else if name == "help".toList then some (.inr .help)
  else none

/-- Whether the arguments of the command that asks for help name a command or nothing. -/
def isHelpTopic : List Text → Bool
  | [] => true
  | [topic] => ["generate", "scan", "help"].any (·.toList == topic)
  | _ => false

/-- Reads a command line behind the flags that have been read. -/
def parseFrom (verbosity : Verbosity) : List Text → Option Request
  | [] => none
  | argument :: arguments =>
    let flags :=
      match argument with
      | '-' :: '-' :: name => some (parseFlag verbosity name)
      | '-' :: letter :: letters => some (parseLetters verbosity (letter :: letters))
      | _ => none
    match flags with
    | some (some (.inl verbosity)) => parseFrom verbosity arguments
    | some (some (.inr request)) => some request
    | some none => none
    | none =>
      if argument == "help".toList then if isHelpTopic arguments then some .help else none
      else
        match parseCommand argument arguments with
        | some (.run command) => if verbosity.isConsistent then some (.run command) else none
        | request => request

/-- What a command line asks for, or `none` if it is not understood. -/
def parseArguments (arguments : List Text) : Option Request :=
  parseFrom .normal arguments

end ExplicitInstantiation
