import BuildAtlas.EditorDocument
import BuildAtlas.Path.Lexical
import BuildAtlas.Project

/-!
# BuildAtlas.Project.Descriptor

What the editor's documents say about one project in one configuration.
-/

namespace BuildAtlas.Project

/-- The label of the task that builds the project. -/
def buildLabel (project : Project) : String :=
  "build " ++ project.fullName

/-- The task that builds the project. -/
def buildTask (project : Project) (configuration : String) : BuildTask where
  label := project.buildLabel
  kind := "shell"
  command := (project.active configuration).buildCommand

/-- The task that removes what building made. -/
def cleanTask (project : Project) (configuration : String) : BuildTask where
  label := "clean " ++ project.fullName
  kind := "shell"
  command := (project.active configuration).cleanCommand

/-- The program to start: the binary as seen from the directory in which it runs. -/
def program (cwd binary : String) : String :=
  if binary == "" || cwd == "" || Path.isAbsolute binary then binary else Path.join cwd binary

/-- The entry that starts the project; only an executable can be started. -/
def launch? (project : Project) (configuration : String) : Option LaunchEntry :=
  let active := project.active configuration
  if active.kind = some .executable then
    some {
      name := project.name
      kind := "cppdbg"
      request := "launch"
      program := program active.rootDir active.binaryPath
      cwd := active.rootDir
      preLaunchTask := project.buildLabel }
  else none

/-- The compiler properties of the project. -/
def properties (project : Project) (configuration : String) : PropertiesDocument :=
  let active := project.active configuration
  { configurations := [{
      name := project.fullName
      includePath := active.includeDirs
      defines := active.defines
      cStandard := "c" ++ active.cStandard
      cppStandard := "c++" ++ active.cppStandard }]
    version := 4 }

end BuildAtlas.Project
