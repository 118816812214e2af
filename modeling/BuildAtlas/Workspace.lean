import BuildAtlas.Project.Descriptor
import BuildAtlas.Selection
import BuildAtlas.SourceFormat
import BuildAtlas.Time

/-!
# BuildAtlas.Workspace

The projects below one root, with the configurations that they have and the one that is active.

A workspace is what one scan found. A later scan gives a new one, which replaces it as a whole; only
the choice of the active configuration is carried over.
-/

namespace BuildAtlas

/-- What a scan found below a root. -/
structure Workspace where
  root : String
  /-- The format of the build metadata, if there is any. -/
  format : Option SourceFormat
  projects : List Project
  configurations : List String
  selection : Selection
  /-- When the scan was done. -/
  discoveredAt : Time
  deriving DecidableEq

namespace Workspace

/-- A workspace in which the first configuration is active. -/
def ofProjects (root : String) (format : Option SourceFormat) (projects : List Project)
    (configurations : List String) (now : Time) : Workspace where
  root := root
  format := format
  projects := projects
  configurations := configurations
  selection := .ofNames configurations
  discoveredAt := now

/-- A workspace without projects. -/
def empty (root : String) (now : Time) : Workspace :=
  ofProjects root none [] [] now

/-- The name of the format; the empty name where there is none. -/
def formatName (workspace : Workspace) : String :=
  (workspace.format.map (·.name)).getD ""

/-- The name of the active configuration. -/
def active (workspace : Workspace) : String :=
  workspace.selection.active

/-! ### Projects -/

/-- The first project with a full name. -/
def project? (workspace : Workspace) (fullName : String) : Option Project :=
  workspace.projects.find? (·.fullName == fullName)

/-- Puts a project in the place of the first one in a list that has its full name. -/
def setIn (project : Project) : List Project → List Project
  | [] => []
  | p :: ps => if p.fullName == project.fullName then project :: ps else p :: setIn project ps

/-- The workspace with a project in the place of the first one that has its full name. -/
def setProject (workspace : Workspace) (project : Project) : Workspace :=
  { workspace with projects := setIn project workspace.projects }

/-! ### The active configuration -/

/-- Makes another configuration active. A name that is not available is found out before anything is
written, so a selection that fails leaves the workspace as it is. -/
def select (workspace : Workspace) (name : String) : Except Error Workspace := do
  pure { workspace with selection := ← workspace.selection.select name }

/-- The newer workspace, with the active configuration of the older one where it is available. -/
def replaceWith (older newer : Workspace) : Workspace :=
  if older.active = "" then newer
  else
    match newer.select older.active with
    | .ok workspace => workspace
    | .error _ => newer

/-! ### Documents -/

/-- The task that builds each project and the one that cleans it. -/
def tasks (workspace : Workspace) : TasksDocument where
  version := "2.0.0"
  tasks := workspace.projects.flatMap fun project =>
    [project.buildTask workspace.active, project.cleanTask workspace.active]

/-- The entries that start the executables. -/
def launch (workspace : Workspace) : LaunchDocument where
  version := "0.2.0"
  entries := workspace.projects.filterMap (·.launch? workspace.active)

/-- The compiler properties of a project. -/
def properties (workspace : Workspace) (fullName : String) : Except Error PropertiesDocument :=
  match workspace.project? fullName with
  | some project => .ok (project.properties workspace.active)
  | none => .error (.projectNotFound fullName)

end Workspace

end BuildAtlas
