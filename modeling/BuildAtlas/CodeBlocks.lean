import BuildAtlas.Imported
import BuildAtlas.Path.Lexical
import BuildAtlas.Xml.Document

/-!
# BuildAtlas.CodeBlocks

The projects of a Code::Blocks project file, one for each target that builds something.

A project file lists its targets in one place and its files in another; a file names the targets
that it belongs to. Where two targets have one title, the first of them gets the files.
-/

namespace BuildAtlas.CodeBlocks

open Xml (Element)

/-- A target of a project file. -/
structure Target where
  title : String
  /-- The number that tells what the target makes. -/
  kind : String
  output : String
  objectOutput : String
  workingDir : String
  includeDirs : List String
  options : List String
  deriving Repr, DecidableEq

namespace Target

/-- The value of an option that a target gives; of several the last one counts. -/
def optionValue (element : Element) (name : String) : String :=
  (((element.elementsNamed "Option").filterMap (·.attribute? name)).getLast?).getD ""

/-- The values that a target gives its compiler under a name. -/
def compilerValues (element : Element) (name : String) : List String :=
  ((element.elementsNamed "Compiler").flatMap (·.elementsNamed "Add")).filterMap (·.attribute? name)

/-- The target that an element describes; it has to have a title. -/
def ofElement? (element : Element) : Option Target := do
  pure {
    title := ← element.attribute? "title"
    kind := optionValue element "type"
    output := optionValue element "output"
    objectOutput := optionValue element "object_output"
    workingDir := optionValue element "working_dir"
    includeDirs := compilerValues element "directory"
    options := compilerValues element "option" }

/-- What a target with these files makes, unless it is only a command. -/
def projectKind? (target : Target) (files : List String) : Option TargetKind :=
  match target.kind with
  | "1" => some .executable
  | "2" => some .staticLibrary
  | "3" => some .sharedLibrary
  | _ => if files.isEmpty then none else some .sourceSet

/-- The directory in which the target runs: the working directory, or else the one of the objects,
or else the one of the project file. -/
def rootDir (target : Target) (directory : String) : String :=
  if target.workingDir != "" then target.workingDir
  else if target.objectOutput != "" then target.objectOutput
  else directory

/-- The project of a target with these files, if the target is one. -/
def toProject? (container directory : String) (target : Target) (files : List String) :
    Option Project := do
  let kind ← target.projectKind? files
  let settings : TargetSettings := {
    kind
    rootDir := target.rootDir directory
    binaryPath := target.output
    includeDirs := target.includeDirs
    compileFlags := target.options
    buildCommand := "cmake --build " ++ directory ++ " --target " ++ target.title
    cleanCommand := "cmake --build " ++ directory ++ " --target clean" }
  pure (.ofTarget target.title (container ++ ":" ++ target.title) files
    (.ofList [("", settings)]) true)

end Target

/-! ### Files -/

/-- The titles of the targets that one file's element names. -/
def owners (unit : Element) : List String :=
  ((unit.elementsNamed "Option").filterMap (·.attribute? "target")).filter (· != "")

/-- The titles and files that belong together according to one file's element. -/
def belongings (directory : String) (unit : Element) : List (String × String) :=
  match unit.attribute? "filename" with
  | none => []
  | some name => (owners unit).map fun title => (title, Path.resolve directory name)

/-- The targets with their files, after targets with the titles `before`. -/
def withFiles (belonging : List (String × String)) (before : List String) :
    List Target → List (Target × List String)
  | [] => []
  | target :: targets =>
    let files :=
      if target.title ∈ before then []
      else (belonging.filter (·.1 == target.title)).map (·.2)
    (target, files) :: withFiles belonging (target.title :: before) targets

/-- The targets of a project element with their files. -/
def targetsOf (directory : String) (project : Element) : List (Target × List String) :=
  let targets := match project.elementsNamed "Build" with
    | build :: _ => (build.elementsNamed "Target").filterMap Target.ofElement?
    | [] => []
  withFiles ((project.elementsNamed "Unit").flatMap (belongings directory)) [] targets

/-! ### Documents -/

/-- The name of the element at the top of a project file. -/
def rootName : String := "CodeBlocks_project_file"

/-- The element that describes the project, if the text has one. -/
def projectElement? (path text : String) : Except Error (Option Element) :=
  match Xml.parse (Text.withoutMarks text) with
  | .error fault => .error (.invalidXml path fault)
  | .ok root =>
    if root.name = rootName then .ok (root.elementsNamed "Project").head?
    else .error (.wrongRoot path rootName)

/-- The targets that a text describes, with their files. -/
def parse (path text : String) : Except Error (List (Target × List String)) := do
  match ← projectElement? path text with
  | some project => .ok (targetsOf (Path.directory path) project)
  | none => .ok []

/-- The project files below a root, which lie among the build files. -/
def discover (tree : FileTree) (root : String) : List String :=
  tree.filesWithExtension (Path.join root Imported.buildFiles) "cbp"

/-- What a project file describes. -/
def load (tree : FileTree) (path : String) : Except Error Imported :=
  Imported.ofDocument tree path fun text => do
    let targets ← parse path text
    pure { projects := targets.filterMap fun (target, files) =>
      target.toProject? (Imported.container path) (Path.directory path) files }

end BuildAtlas.CodeBlocks
