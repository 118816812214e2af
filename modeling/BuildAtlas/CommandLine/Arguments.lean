import BuildAtlas.Text.Split

/-!
# BuildAtlas.CommandLine.Arguments

Reading the arguments of a run: options, then a command.

An option takes its value from the next argument or after an equals sign, and may be given once. The
value of an option is settled when the next option comes, or after the command has been read; so a
request for help in the command's own arguments is met before a fault in the option right before
the command.
-/

namespace BuildAtlas.CommandLine

/-- What a run prints. -/
inductive Command
  | projects
  | configurations
  | tasks
  | launch
  /-- The compiler properties of the project with a full name. -/
  | properties (fullName : String)
  deriving Repr, DecidableEq

/-- The arguments of a run. -/
structure Arguments where
  root : Option String
  configuration : Option String
  msbuild : Option String
  logLevel : Option String
  logFile : Option String
  command : Command
  deriving Repr, DecidableEq

/-- Why arguments do not lead to a run. -/
inductive Stop
  /-- They ask for help or for the version. -/
  | help
  /-- They are wrong. -/
  | usage
  deriving Repr, DecidableEq

/-- An option with a value. -/
inductive OptionName
  | root
  | configuration
  | msbuild
  | logLevel
  | logFile
  deriving Repr, DecidableEq

namespace OptionName

/-- The option with a name, which is written after two dashes. -/
def ofText? : String → Option OptionName
  | "root" => some .root
  | "config" => some .configuration
  | "msbuild-path" => some .msbuild
  | "log-level" => some .logLevel
  | "log-file" => some .logFile
  | _ => none

/-- Is the value a path? A path is not empty. -/
def isPath : OptionName → Bool
  | .root | .logFile => true
  | _ => false

end OptionName

/-- The options read so far. -/
structure Options where
  /-- The settled options, with their values. -/
  settled : List (OptionName × String) := []
  /-- The last option, whose value is not settled or still missing. -/
  pending : Option (OptionName × Option String) := none

namespace Options

/-- The options with one more; each may be given once. -/
def add (options : Options) (name : OptionName) (value : String) : Except Stop Options :=
  if (options.settled.lookup name).isSome || (name.isPath && value == "") then .error .usage
  else .ok { options with settled := options.settled ++ [(name, value)] }

/-- Settles the value of the last option. -/
def settle (options : Options) : Except Stop Options :=
  match options.pending with
  | none => .ok options
  | some (_, none) => .error .usage
  | some (name, some value) => { options with pending := none }.add name value

/-- Does the last option lack its value? -/
def isAwaiting (options : Options) : Bool :=
  match options.pending with
  | some (_, none) => true
  | _ => false

/-- Gives the last option its value. -/
def fill (options : Options) (value : String) : Options :=
  { options with pending := options.pending.map fun (name, _) => (name, some value) }

end Options

/-- What an argument looks like. -/
inductive Shape
  /-- Two dashes alone, after which no argument is an option. -/
  | dashes
  /-- Two dashes and a name, perhaps with a value after an equals sign. -/
  | long (name : String) (value : Option String)
  /-- One dash and letters, of which the first is given. -/
  | short (letter : Char)
  | word
  deriving Repr, DecidableEq

/-- The shape of an argument. -/
def Shape.of (argument : String) : Shape :=
  match argument.toList with
  | ['-', '-'] => .dashes
  | '-' :: '-' :: rest =>
    match Text.breakOn? ['='] rest with
    | some (name, value) => .long (.ofList name) (some (.ofList value))
    | none => .long (.ofList rest) none
  | '-' :: letter :: _ => .short letter
  | _ => .word

/-! ### Commands -/

/-- The arguments of a command that has none of its own. -/
def endOfCommand : List String → Except Stop Unit
  | [] => .ok ()
  | argument :: rest =>
    match Shape.of argument with
    | .long "help" none | .short 'h' => .error .help
    | .dashes => if rest.isEmpty then .ok () else .error .usage
    | _ => .error .usage

/-- The arguments of a command that has one of its own. -/
def oneArgument : List String → Except Stop String
  | [] => .error .usage
  | argument :: rest =>
    match Shape.of argument with
    | .long "help" none | .short 'h' => .error .help
    | .dashes =>
      match rest with
      | [value] => .ok value
      | _ => .error .usage
    | .word => do
      endOfCommand rest
      pure argument
    | _ => .error .usage

/-- The names of the commands. -/
def commandNames : List String :=
  ["projects", "configs", "tasks", "launch", "properties", "help"]

/-- The arguments of a request for help: the name of a command, if any. -/
def helpRequest : List String → Stop
  | [] => .help
  | [name] => if commandNames.contains name then .help else .usage
  | _ => .usage

/-- The command with a name and its arguments. -/
def command (name : String) (arguments : List String) : Except Stop Command :=
  let plain (command : Command) : Except Stop Command := do
    endOfCommand arguments
    pure command
  match name with
  | "projects" => plain .projects
  | "configs" => plain .configurations
  | "tasks" => plain .tasks
  | "launch" => plain .launch
  | "properties" => .properties <$> oneArgument arguments
  | "help" => .error (helpRequest arguments)
  | _ => .error .usage

/-! ### Runs -/

/-- The arguments of a run after some options. -/
def parseAfter (options : Options) : List String → Except Stop Arguments
  | [] => .error .usage
  | argument :: rest =>
    match Shape.of argument with
    | .dashes => .error .usage
    | .long name value =>
      match OptionName.ofText? name, value with
      | some option, some value => do
        parseAfter (← (← options.settle).add option value) rest
      | some option, none => do
        parseAfter { ← options.settle with pending := some (option, none) } rest
      | none, none =>
        if name = "help" ∨ name = "version" then do
          let _ ← options.settle
          throw .help
        else .error .usage
      | none, some _ => .error .usage
    | .short letter =>
      if letter = 'h' ∨ letter = 'V' then do
        let _ ← options.settle
        throw .help
      else .error .usage
    | .word =>
      if options.isAwaiting then parseAfter (options.fill argument) rest
      else do
        let command ← command argument rest
        let options ← options.settle
        let value := fun (name : OptionName) => options.settled.lookup name
        pure {
          root := value .root
          configuration := value .configuration
          msbuild := value .msbuild
          logLevel := value .logLevel
          logFile := value .logFile
          command }

/-- The arguments of a run. -/
def parse (arguments : List String) : Except Stop Arguments :=
  parseAfter {} arguments

end BuildAtlas.CommandLine
