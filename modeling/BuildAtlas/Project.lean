import BuildAtlas.CompileFlags
import BuildAtlas.FileGroup
import BuildAtlas.SortedMap
import BuildAtlas.Text.Blank

/-!
# BuildAtlas.Project

One build target: its files, and its settings in each configuration.

A project keeps its files twice, in their order and by group; both are changed together. Each kind
of setting is a map from configuration names, with the empty name for formats that know no
configurations. `Project.ofTarget` builds all these maps from one map of settings.
-/

namespace BuildAtlas

/-- What building a target makes. -/
inductive TargetKind
  | executable
  | staticLibrary
  | sharedLibrary
  /-- Nothing but the objects of its files. -/
  | sourceSet
  deriving Repr, DecidableEq

namespace TargetKind

/-- All kinds. -/
def all : List TargetKind :=
  [executable, staticLibrary, sharedLibrary, sourceSet]

/-- The name of a kind in documents. -/
def name : TargetKind → String
  | executable => "executable"
  | staticLibrary => "static_library"
  | sharedLibrary => "shared_library"
  | sourceSet => "source_set"

end TargetKind

/-- What an importer finds out about a target in one configuration. -/
structure TargetSettings where
  kind : TargetKind
  /-- The directory in which the target runs. -/
  rootDir : String := ""
  /-- The file that building makes. -/
  binaryPath : String := ""
  defines : List String := []
  includeDirs : List String := []
  compileFlags : List String := []
  buildCommand : String := ""
  cleanCommand : String := ""
  deriving Repr, DecidableEq

/-- Values by configuration name. -/
abbrev PerConfiguration (α : Type) := SortedMap String α

/-- One build target. -/
structure Project where
  name : String
  /-- The name that tells the project from others; it is kept when the target is imported again. -/
  fullName : String
  rootDir : PerConfiguration String
  binaryPath : PerConfiguration String
  kind : PerConfiguration TargetKind
  /-- The files by group; a group without files is not stored. -/
  filesByGroup : SortedMap FileGroup (List String)
  /-- The files in their order. -/
  files : List String
  defines : PerConfiguration (List String)
  includeDirs : PerConfiguration (List String)
  compileFlags : PerConfiguration (List String)
  buildCommand : PerConfiguration String
  cleanCommand : PerConfiguration String
  cStandard : PerConfiguration String
  cppStandard : PerConfiguration String
  isReadOnly : Bool
  canBuild : Bool
  deriving DecidableEq

namespace Project

/-! ### Files -/

/-- Adds a file to the list and to its group, whether or not it is there. -/
def pushFile (project : Project) (path : String) : Project :=
  let group := FileGroup.ofPath path
  let listed := (project.filesByGroup.find? group).getD []
  { project with
    filesByGroup := project.filesByGroup.insert group (listed ++ [path])
    files := project.files ++ [path] }

/-- The project with one more file, unless it has the file already. That is tested before anything
is written, so a file that is not added leaves the project as it is. -/
def addFile? (project : Project) (path : String) : Option Project :=
  if path ∈ project.files then none else some (project.pushFile path)

/-- The files by group without a path, which leaves no empty group. -/
def dropFromGroup (groups : SortedMap FileGroup (List String)) (path : String) :
    SortedMap FileGroup (List String) :=
  let group := FileGroup.ofPath path
  match groups.find? group with
  | none => groups
  | some listed =>
    match listed.filter (· != path) with
    | [] => groups.erase group
    | kept => groups.insert group kept

/-- The project without any copy of a file, unless it does not have the file. Here too the test
comes before anything is written. -/
def deleteFile? (project : Project) (path : String) : Option Project :=
  if path ∈ project.files then
    some { project with
      files := project.files.filter (· != path)
      filesByGroup := dropFromGroup project.filesByGroup path }
  else none

/-- The groups in shown order, each with its files in increasing order. -/
def groups (project : Project) : List (FileGroup × List String) :=
  project.filesByGroup.toList.map fun (group, files) => (group, files.mergeSort)

/-! ### Construction -/

/-- A project without files. Macros and include directories are those given for a configuration,
followed by those that its compiler flags name. -/
def ofSettings (name fullName : String) (settings : PerConfiguration TargetSettings)
    (isReadOnly : Bool) : Project :=
  let flags := fun (s : TargetSettings) => CompileFlags.parse s.compileFlags
  { name, fullName, isReadOnly
    files := []
    filesByGroup := ∅
    rootDir := settings.mapValues (·.rootDir)
    binaryPath := settings.mapValues (·.binaryPath)
    kind := settings.mapValues (·.kind)
    defines := settings.mapValues fun s => s.defines ++ (flags s).defines
    includeDirs := settings.mapValues fun s => s.includeDirs ++ (flags s).includeDirs
    compileFlags := settings.mapValues (·.compileFlags)
    buildCommand := settings.mapValues (·.buildCommand)
    cleanCommand := settings.mapValues (·.cleanCommand)
    cStandard := settings.mapValues fun s => (flags s).cStandard
    cppStandard := settings.mapValues fun s => (flags s).cppStandard
    canBuild := settings.values.any fun s => !Text.isBlankText s.buildCommand }

/-- The project of a target. -/
def ofTarget (name fullName : String) (files : List String)
    (settings : PerConfiguration TargetSettings) (isReadOnly : Bool) : Project :=
  files.foldl pushFile (ofSettings name fullName settings isReadOnly)

/-! ### Settings in one configuration -/

/-- The names of the configurations in which the project has settings. -/
def configurations (project : Project) : List String :=
  project.kind.keys

/-- A value in a configuration, or the one that stands for it. -/
def valueAt {α : Type} (map : PerConfiguration α) (configuration : String) (standing : α) : α :=
  (map.find? configuration).getD standing

/-- The settings in a configuration. Where the project has none, texts and lists are empty, the
standards are the usual ones, and there is no kind. -/
structure Active where
  rootDir : String
  binaryPath : String
  kind : Option TargetKind
  defines : List String
  includeDirs : List String
  compileFlags : List String
  buildCommand : String
  cleanCommand : String
  cStandard : String
  cppStandard : String
  deriving Repr, DecidableEq

/-- The settings of the project in a configuration. -/
def active (project : Project) (configuration : String) : Active where
  rootDir := valueAt project.rootDir configuration ""
  binaryPath := valueAt project.binaryPath configuration ""
  kind := project.kind.find? configuration
  defines := valueAt project.defines configuration []
  includeDirs := valueAt project.includeDirs configuration []
  compileFlags := valueAt project.compileFlags configuration []
  buildCommand := valueAt project.buildCommand configuration ""
  cleanCommand := valueAt project.cleanCommand configuration ""
  cStandard := valueAt project.cStandard configuration CompileFlags.default.cStandard
  cppStandard := valueAt project.cppStandard configuration CompileFlags.default.cppStandard

end Project

end BuildAtlas
