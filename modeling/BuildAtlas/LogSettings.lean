import BuildAtlas.Environment
import BuildAtlas.Path
import BuildAtlas.Text.Digit

/-!
# BuildAtlas.LogSettings

Where a run writes its log, and how much of it.
-/

namespace BuildAtlas

/-- The settings of the log. -/
structure LogSettings where
  /-- The filter for what is written. -/
  level : String
  /-- The file that is written to, if there is one. -/
  file : Option String
  /-- Is each record a JSON object? -/
  isJson : Bool
  deriving Repr, DecidableEq

namespace LogSettings

/-- The path with a tag in its file name, before an extension that is not empty. A path without a
file name stays as it is. -/
def tagged (path tag : String) : String :=
  match Path.fileName? path with
  | none => path
  | some name =>
    match Path.stemAndExtension name with
    | (stem, none) | (stem, some "") => Path.withFileName path (stem ++ "." ++ tag)
    | (stem, some extension) => Path.withFileName path (stem ++ "." ++ tag ++ "." ++ extension)

/-- The tag that tells the runs of processes apart. -/
def processTag (processId : Nat) : String :=
  .ofList (Text.decimal processId)

/-- Is the variable set to `true`? -/
def isOn (environment : Environment) (name : String) : Bool :=
  environment name == some "true"

/-- The settings that the environment gives. -/
def ofEnvironment (environment : Environment) (tag : String) : LogSettings where
  level := (environment "RUST_LOG").getD "info"
  file := (environment "CSE_LOG_FILE").map fun path =>
    if isOn environment "CSE_LOG_UNIQUE" then tagged path tag else path
  isJson := isOn environment "CSE_LOG_JSON"

/-- The settings with another level and another file, if they are given. -/
def withOverrides (settings : LogSettings) (level file : Option String) : LogSettings :=
  { settings with level := level.getD settings.level, file := file.or settings.file }

end LogSettings

end BuildAtlas
