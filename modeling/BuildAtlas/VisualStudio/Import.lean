import BuildAtlas.ImportSettings
import BuildAtlas.Imported
import BuildAtlas.VisualStudio.ProjectDocument

/-!
# BuildAtlas.VisualStudio.Import

The projects of a solution.

Each project is resolved once for each configuration of the solution, in the configuration of the
project that is active there. A project whose document cannot be read is left out.
-/

namespace BuildAtlas.VisualStudio

/-- The solutions below a root: those in the root, then those among the build files. -/
def discover (tree : FileTree) (root : String) : List String :=
  tree.filesWithExtension root "sln"
    ++ tree.filesWithExtension (Path.join root Imported.buildFiles) "sln"

/-- The extensions of the files that a project shows. -/
def shownExtensions : List String :=
  ["c", "cpp", "cc", "cxx", "h", "hh", "hpp", "hxx", "m", "mm", "java"]

/-- The directory in which CMake builds a solution that it generated. -/
def cmakeDir (solutionDir : String) : String :=
  if Path.fileName? solutionDir = some Imported.buildFiles then solutionDir
  else Path.join solutionDir Imported.buildFiles

/-- The command that builds a project in a configuration of its solution. -/
def buildCommand (msbuild : String) (solution : Solution) (target configuration : String) :
    String :=
  let (name, platform) := splitConfiguration configuration
  if solution.isGenerated then
    "cmake --build " ++ cmakeDir solution.directory ++ " --target " ++ target
      ++ " --config " ++ name
  else
    msbuild ++ " " ++ solution.path ++ " -t:" ++ target ++ " -property:Configuration=" ++ name
      ++ " -property:Platform=" ++ platform

/-- The command that removes what building in a configuration of the solution made. -/
def cleanCommand (msbuild : String) (solution : Solution) (configuration : String) : String :=
  let (name, platform) := splitConfiguration configuration
  if solution.isGenerated then
    "cmake --build " ++ cmakeDir solution.directory ++ " --target clean --config " ++ name
  else
    msbuild ++ " " ++ solution.path ++ " -t:Clean -property:Configuration=" ++ name
      ++ " -property:Platform=" ++ platform

/-- The settings of a project in a configuration of its solution. -/
def targetSettings (settings : ImportSettings) (solution : Solution) (document : ProjectDocument)
    (configuration : String) : TargetSettings :=
  let active := solution.projectConfiguration document.project.guid configuration
  { kind := document.kind active
    rootDir := solution.directory
    binaryPath := document.binaryPath active
    defines := document.defines active
    includeDirs := document.includeDirs active
    compileFlags := document.compileFlags active
    buildCommand := buildCommand settings.msbuild solution document.project.name configuration
    cleanCommand := cleanCommand settings.msbuild solution configuration }

/-- The project that a document describes as a part of its solution. -/
def toProject (settings : ImportSettings) (solution : Solution) (document : ProjectDocument) :
    Project :=
  .ofTarget document.project.name
    (Imported.container solution.path ++ ":" ++ document.project.path)
    (document.files.filter (Imported.hasListedExtension shownExtensions))
    (.ofList (solution.configurations.map fun configuration =>
      (configuration, targetSettings settings solution document configuration)))
    !(document.hasExtensionTargets && settings.hasToolchain)

/-- The documents of a solution's projects, without those that cannot be read. -/
def documents (tree : FileTree) (solution : Solution) : List ProjectDocument :=
  solution.projects.filterMap fun project =>
    (ProjectDocument.load tree project solution.directory).toOption

/-- What a solution describes with these documents of its projects. -/
def imported (settings : ImportSettings) (solution : Solution)
    (documents : List ProjectDocument) : Imported where
  projects := documents.map (toProject settings solution)
  configurations := solution.configurations

/-- What a solution describes. -/
def load (settings : ImportSettings) (tree : FileTree) (path : String) : Except Error Imported :=
  Imported.ofDocument tree path fun text =>
    let solution := Solution.parse path text
    .ok (imported settings solution (documents tree solution))

end BuildAtlas.VisualStudio
