import BuildAtlas.Error
import BuildAtlas.Path.Lexical
import BuildAtlas.VisualStudio.Guid

/-!
# BuildAtlas.VisualStudio.Solution

Solutions: the projects they list, their configurations, and which configuration of a project is
active in which configuration of the solution.

A solution's text is read line by line into entries; a line that makes no entry is skipped, and so
is one that begins like a project but lists none. Inside one of the two sections about
configurations every line belongs to the section until a line ends it.
-/

namespace BuildAtlas.VisualStudio

/-- One thing that a solution's text says. -/
inductive SolutionEntry
  /-- A project with its name, its document and its identifier, as they are written. -/
  | project (name path guid : String)
  /-- The name of a configuration of the solution. -/
  | configuration (name : String)
  /-- The configuration of a project that is active in a configuration of the solution. -/
  | active (guid configuration projectConfiguration : String)
  /-- A line that begins like a project but lists none. -/
  | malformed (line : String)
  deriving Repr, DecidableEq

/-- Where in a solution's text a line stands. -/
inductive Section
  | outside
  | solutionConfigurations
  | projectConfigurations
  deriving Repr, DecidableEq

namespace SolutionEntry

/-- A value without the blanks around it and then without quotes. -/
def unquote (value : String) : String :=
  Text.trimMatches (· == '"') (Text.trim value)

/-- Reads a line that lists a project: the name after the equals sign, the path and the identifier,
parted by commas. -/
def project? (line : String) : Option SolutionEntry :=
  match Text.splitOn ',' line with
  | head :: path :: guid :: _ => do
    let (_, name) ← Text.splitOnce? "=" head
    pure (.project (unquote name) (unquote path) (unquote guid))
  | _ => none

/-- Reads a line that names a configuration of the solution. -/
def configuration? (line : String) : Option SolutionEntry :=
  let name := Text.trim (((Text.splitOnce? "=" line).map (·.1)).getD line)
  if name = "" then none else some (.configuration name)

/-- Reads a line that makes a configuration of a project active. -/
def active? (line : String) : Option SolutionEntry := do
  let (property, value) ← Text.splitOnce? "=" line
  let property ← Text.dropEnd? ".ActiveCfg" (Text.trim property)
  let (guid, name) ← Text.splitOnce? "." property
  pure (.active guid name (Text.trim value))

/-- Does the line begin with this text? -/
def begins (start line : String) : Bool :=
  (Text.dropStart? start line).isSome

/-- The section after a line that stands outside of any. -/
def opened (line : String) : Section :=
  if begins "GlobalSection(SolutionConfigurationPlatforms)" line then .solutionConfigurations
  else if begins "GlobalSection(ProjectConfigurationPlatforms)" line then .projectConfigurations
  else .outside

/-- The entry that a line makes, and the section after it. -/
def ofLine (place : Section) (line : String) : Option SolutionEntry × Section :=
  if begins "EndGlobalSection" line then (none, .outside)
  else
    match place with
    | .solutionConfigurations => (configuration? line, place)
    | .projectConfigurations => (active? line, place)
    | .outside =>
      if begins "Project(" line then (some ((project? line).getD (.malformed line)), .outside)
      else (none, opened line)

/-- The entries of the lines from a place on. -/
def ofLines (place : Section) : List String → List SolutionEntry
  | [] => []
  | line :: lines =>
    let (entry, place) := ofLine place line
    entry.toList ++ ofLines place lines

/-- The entries of a text. -/
def ofText (text : String) : List SolutionEntry :=
  ofLines .outside ((Text.splitOn '\n' (Text.withoutMarks text)).map Text.trim)

end SolutionEntry

/-- A project as a solution lists it. -/
structure SolutionProject where
  name : String
  /-- The project's document, seen from the directory of the solution. -/
  path : String
  /-- The identifier, as it is written. -/
  guid : String
  deriving Repr, DecidableEq

/-- A solution. -/
structure Solution where
  path : String
  projects : List SolutionProject
  /-- The names of the configurations, in the order in which they are listed. -/
  configurations : List String
  /-- The key of a project, a configuration of the solution, and the configuration of the project
  that is active in it, in the order in which they are listed. -/
  active : List (String × String × String)
  /-- Has the solution been generated by CMake? -/
  isGenerated : Bool
  deriving Repr, DecidableEq

namespace Solution

/-- The projects that CMake adds to every solution. -/
def utilityProjects : List String :=
  ["ALL_BUILD", "ZERO_CHECK"]

/-- Is this the path of a project document? -/
def isDocumentPath (path : String) : Bool :=
  (Text.dropEnd? "vcxproj" path).isSome

/-- The project that an entry lists, if its document is a project document. -/
def project? (directory : String) : SolutionEntry → Option SolutionProject
  | .project name path guid =>
    if isDocumentPath path then
      some { name, guid, path := Path.resolve directory (Path.withSlashes path) }
    else none
  | _ => none

/-- The configuration name that an entry lists. -/
def configuration? : SolutionEntry → Option String
  | .configuration name => some name
  | _ => none

/-- The active configuration that an entry lists. -/
def active? : SolutionEntry → Option (String × String × String)
  | .active guid configuration projectConfiguration =>
    some (projectKey guid, configuration, projectConfiguration)
  | _ => none

/-- Does the entry list a project that CMake adds? -/
def isUtility : SolutionEntry → Bool
  | .project name _ _ => utilityProjects.contains name
  | _ => false

/-- The solution that entries make up. -/
def ofEntries (path : String) (entries : List SolutionEntry) : Solution where
  path := path
  projects := entries.filterMap (project? (Path.directory path))
  configurations := (entries.filterMap configuration?).eraseDups
  active := entries.filterMap active?
  isGenerated := entries.any isUtility

/-- The solution that a text describes. -/
def parse (path text : String) : Solution :=
  ofEntries path (SolutionEntry.ofText text)

/-- The directory of the solution. -/
def directory (solution : Solution) : String :=
  Path.directory solution.path

/-- The configuration of a project that is active in a configuration of the solution: what the last
line about them says, and nothing where there is none. -/
def projectConfiguration (solution : Solution) (guid configuration : String) : String :=
  let about := solution.active.filter fun (key, name, _) =>
    key == projectKey guid && name == configuration
  (about.getLast?.map (·.2.2)).getD ""

/-! ### Changes, of which none is supported -/

/-- Would write the solution back. -/
def save (_ : Solution) : Except Error Unit :=
  .error (.notImplemented "Solution::save")

/-- Would add a project. -/
def addProject (_ : Solution) (_ : SolutionProject) : Except Error Solution :=
  .error (.notImplemented "Solution::add_project")

/-- Would remove a project. -/
def removeProject (_ : Solution) (_guid : String) : Except Error Solution :=
  .error (.notImplemented "Solution::remove_project")

/-- Would add a configuration. -/
def addConfiguration (_ : Solution) (_copyFrom : Option String) : Except Error Solution :=
  .error (.notImplemented "Solution::add_configuration")

end Solution

end BuildAtlas.VisualStudio
