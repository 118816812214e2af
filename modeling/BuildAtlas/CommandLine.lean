import BuildAtlas.CommandLine.Arguments
import BuildAtlas.EditorDocument.Codec
import BuildAtlas.Project.Codec
import BuildAtlas.Text.Report
import BuildAtlas.Workspace.LoggedScan

/-!
# BuildAtlas.CommandLine

A run of the program as a function of what it sees.

A run reads its arguments, opens its log, scans the root, makes the wanted configuration active and
prints one document. What goes wrong decides the exit code: 2 for wrong arguments and for a
configuration that does not exist, 1 for a log that cannot be opened and for a project that does not
exist. A root that cannot be scanned counts as a workspace without projects. The log may be one of
the documents below the root; the scan then finds in it what the run has noted by that time.
-/

namespace BuildAtlas.CommandLine

/-- What a run sees of its host. -/
structure Host where
  environment : Environment
  tree : FileTree
  /-- The tag that tells the logs of processes apart. -/
  processTag : String
  /-- What the clock shows during the run. Only the log and the workspace note it, so a host may
  leave it out whose log is not read. -/
  clock : Clock := fun _ => Time.start

/-- What a run does. -/
structure Outcome where
  exitCode : Nat := 0
  /-- What is printed as the result. -/
  output : String := ""
  /-- What is printed about faults. -/
  faults : String := ""
  /-- The file that the log is written to. -/
  logFile : Option String := none
  deriving Repr, DecidableEq

/-! ### Texts -/

/-- How to call the program. -/
def usage : String :=
  "Usage: [--root <DIR>] [--config <NAME>] [--msbuild-path <PATH>] [--log-level <LEVEL>] "
    ++ "[--log-file <FILE>] <COMMAND>\n\n"
    ++ "Commands:\n"
    ++ "  projects                List the imported projects\n"
    ++ "  configs                 List the configuration names and the active one\n"
    ++ "  tasks                   Print the build and clean tasks document\n"
    ++ "  launch                  Print the launch document for executable projects\n"
    ++ "  properties <FULL_NAME>  Print the compiler properties of one project\n"

/-- An error as it is reported when it ends a run. -/
def report : Error → String
  | .projectNotFound fullName =>
    "Error: ProjectNotFound \x7b full_name: " ++ Text.reportQuoted fullName ++ " \x7d\n"
  | e => "Error: " ++ e.message ++ "\n"

/-! ### Documents -/

/-- The active configuration and all configurations. -/
def configurationsCodec : Json.Codec (String × List String) :=
  .record
    (.cons "active" .string .refused <|
      .cons "configurations" (.list .string) .refused .nil)
    (fun (active, names) => (active, names, ()))
    (fun (active, names, _) => (active, names))

/-- A value as the lines that a run prints. -/
def printed {α : Type} (codec : Json.Codec α) (a : α) : String :=
  codec.encode .pretty a ++ "\n"

/-- What a command prints about a workspace. -/
def document (workspace : Workspace) : Command → Except Error String
  | .projects => .ok (printed (.list Project.codec) workspace.projects)
  | .configurations =>
    .ok (printed configurationsCodec (workspace.active, workspace.configurations))
  | .tasks => .ok (printed TasksDocument.codec workspace.tasks)
  | .launch => .ok (printed LaunchDocument.codec workspace.launch)
  | .properties fullName => do
    pure (printed PropertiesDocument.codec (← workspace.properties fullName))

/-! ### Runs -/

/-- The root that a run scans: the current directory where none is given. -/
def rootOf (tree : FileTree) (arguments : Arguments) : String :=
  arguments.root.getD ("/" ++ "/".intercalate tree.current)

/-- The settings of a run's log. -/
def logSettings (host : Host) (arguments : Arguments) : LogSettings :=
  (LogSettings.ofEnvironment host.environment host.processTag).withOverrides
    arguments.logLevel arguments.logFile

/-- What a run notes before it scans. -/
def startRecords (settings : ImportSettings) (root : String) : List LogRecord :=
  [{ level := .info
     source := .program
     lineNumber := 116
     message := "Using msbuild: " ++ settings.msbuild },
   { level := .info
     source := .program
     lineNumber := 62
     message := "Scanning workspace root for build metadata: " ++ root }]

/-- The workspace of a run, with what is reported about the scan. -/
def scanned (host : Host) (log : Log) (arguments : Arguments) : Workspace × String :=
  let settings := (ImportSettings.ofEnvironment host.environment).withMsbuild arguments.msbuild
  let root := rootOf log.tree arguments
  let log := log.note (startRecords settings root)
  match Workspace.scanLogged log settings root with
  | .ok workspace => (workspace, "")
  | .error e =>
    (.empty root log.clock.now,
      "Failed to scan workspace at " ++ root ++ ": " ++ e.message ++ "\n")

/-- The workspace with the wanted configuration active, if one is wanted. -/
def selected (workspace : Workspace) : Option String → Except Error Workspace
  | none => .ok workspace
  | some name => workspace.select name

/-- What a run does with its arguments read. -/
def runWith (host : Host) (arguments : Arguments) : Outcome :=
  let logFile := (logSettings host arguments).file
  match Log.ofSettings (logSettings host arguments) host.clock host.tree with
  | .error fault =>
    { exitCode := 1, faults := "Failed to initialize logging: " ++ fault.message ++ "\n" }
  | .ok log =>
    let (workspace, faults) := scanned host log arguments
    match selected workspace arguments.configuration with
    | .error e => { exitCode := 2, faults := faults ++ e.message ++ "\n", logFile }
    | .ok workspace =>
      match document workspace arguments.command with
      | .error e => { exitCode := 1, faults := faults ++ report e, logFile }
      | .ok output => { output, faults, logFile }

/-- What a run does. -/
def run (host : Host) (arguments : List String) : Outcome :=
  match parse arguments with
  | .error .help => { output := usage }
  | .error .usage => { exitCode := 2, faults := usage }
  | .ok arguments => runWith host arguments

end BuildAtlas.CommandLine
