import BuildAtlas.Gn.Description
import BuildAtlas.Gn.EnvironmentBlock
import BuildAtlas.ImportSettings
import BuildAtlas.Imported

/-!
# BuildAtlas.Gn.Import

The projects of a GN build description: one for each target that builds something, in the order of
the target names. A build description knows no configurations.
-/

namespace BuildAtlas.Gn

/-- The build description below a root, if there is one. -/
def discover (tree : FileTree) (root : String) : List String :=
  let path := Path.join root "gn.json"
  if tree.hasFile path then [path] else []

/-- The extensions of the files that a project shows. -/
def shownExtensions : List String :=
  ["c", "cc", "cpp", "cxx", "h", "hh", "hpp", "hxx", "m", "mm", "java", "cs", "py", "vb", "lua",
   "go", "ts", "js"]

/-- The last part of a target's label, without its toolchain. -/
def shortName (label : String) : String :=
  let bare := label.toList.takeWhile (· != '(')
  .ofList (((Text.breakOnLast? ':' bare).map (·.2)).getD bare)

/-- A path as seen from the directory of the description; two slashes in front stand for the root
path, when one is given. -/
def resolve (rootPath : Option String) (path : String) : String :=
  match rootPath, Text.dropStart? "//" path with
  | some root, some rest => Path.join root rest
  | _, _ => path

/-- The files that a target shows. -/
def shownFiles (rootPath : Option String) (target : Target) : List String :=
  ((target.sources ++ target.inputs).filter (Imported.hasListedExtension shownExtensions)).map
    (resolve rootPath)

/-- The include directories of the toolchain for a processor, as the build directory stores them. -/
def toolchainDirs (tree : FileTree) (buildDir processor : String) : List String :=
  match tree.read (Path.join buildDir ("environment." ++ processor)) with
  | .ok block => includeDirs block.toList
  | .error _ => []

/-- The directory in which a target is built. -/
def workDir (description : Description) (target : Target) : String :=
  (target.buildDir.map (resolve description.rootPath)).getD "./"

/-- The include directories that a target takes from its toolchain. -/
def systemDirs (settings : ImportSettings) (tree : FileTree) (description : Description)
    (target : Target) : List String :=
  match target.buildDir, (description.args.find? "target_cpu").bind Json.Value.text? with
  | some _, some processor =>
    if settings.systemIncludes then toolchainDirs tree (workDir description target) processor
    else []
  | _, _ => []

/-- The settings of a target. -/
def targetSettings (settings : ImportSettings) (tree : FileTree) (description : Description)
    (target : Target) : TargetSettings :=
  let workDir := workDir description target
  let binary := target.outputFile.getD ""
  let ninja := target.ninjaPath.getD "ninja" ++ " -C " ++ workDir
  { kind := target.projectKind
    rootDir := workDir
    binaryPath := binary
    defines := target.defines
    includeDirs := systemDirs settings tree description target
      ++ target.includeDirs.map (resolve description.rootPath)
    compileFlags := target.compileFlags
    buildCommand := ninja ++ " " ++ binary
    cleanCommand := ninja ++ " -t clean " ++ binary }

/-- The project of a target, if the target is one. -/
def toProject? (settings : ImportSettings) (tree : FileTree) (container : String)
    (description : Description) (label : String) (target : Target) : Option Project :=
  let files := shownFiles description.rootPath target
  if target.isProject files then
    some (.ofTarget (shortName label) (container ++ ":" ++ label) files
      (.ofList [("", targetSettings settings tree description target)]) true)
  else none

/-- What a build description describes. -/
def load (settings : ImportSettings) (tree : FileTree) (path : String) : Except Error Imported :=
  Imported.ofDocument tree path fun text =>
    match Description.codec.decode text with
    | .error fault => .error (.invalidJson path fault)
    | .ok description =>
      .ok { projects := description.targets.toList.filterMap fun (label, target) =>
        toProject? settings tree (Imported.container path) description label target }

end BuildAtlas.Gn
