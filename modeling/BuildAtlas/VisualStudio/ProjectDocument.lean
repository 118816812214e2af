import BuildAtlas.Error
import BuildAtlas.Path.Lexical
import BuildAtlas.Project
import BuildAtlas.VisualStudio.Macros
import BuildAtlas.VisualStudio.Solution
import BuildAtlas.Xml.Document

/-!
# BuildAtlas.VisualStudio.ProjectDocument

Project documents: the files of a project and its settings, resolved for one configuration.

A document gives settings in groups, and a group may have a condition that names one configuration.
What the groups give is kept in the order of the document together with the configuration that each
group is for, the empty name where it has no condition. Lists add up: first what holds for all
configurations, then what holds for one. Of single values the last one given for the configuration
counts, or else the last one given for all.
-/

namespace BuildAtlas.VisualStudio

/-! ### Lists in documents -/

/-- A text without inheritance markers: from each `%(` up to the next `)`. A marker that is not
closed stays. -/
def withoutMarkers (cs : List Char) : List Char :=
  let runs := cs.splitOn ')'
  let closed := fun (run : List Char) =>
    match Text.breakOn? ['%', '('] run with
    | some (before, _) => before
    | none => run ++ [')']
  runs.dropLast.flatMap closed ++ runs.getLast?.getD []

/-- The entries of a list that semicolons part, without markers, blanks around entries and empty
entries. -/
def listEntries (value : String) : List String :=
  let entries := (withoutMarkers value.toList).splitOn ';'
  (entries.map (Text.trimWhere Text.isBlank)).filter (!·.isEmpty) |>.map .ofList

/-- The words of a text without markers. -/
def optionWords (value : String) : List String :=
  Text.words (.ofList (withoutMarkers value.toList))

/-! ### What groups give -/

/-- The kinds of items that are files of a project. -/
inductive ItemKind
  | compile
  | header
  | customBuild
  | other
  deriving Repr, DecidableEq

/-- The kind of the items with an element name. -/
def ItemKind.ofElement? : String → Option ItemKind
  | "ClCompile" => some .compile
  | "ClInclude" => some .header
  | "CustomBuild" => some .customBuild
  | "None" => some .other
  | _ => none

/-- A file of a project. -/
structure Item where
  kind : ItemKind
  path : String
  deriving Repr, DecidableEq

/-- What one element gives for compiling. -/
structure CompileSettings where
  defines : List String
  includeDirs : List String
  options : List String
  deriving Repr, DecidableEq

/-- What one element gives for linking. -/
structure LinkValues where
  subSystem : Option String
  debugInformation : Option String
  deriving Repr, DecidableEq

/-- How the objects of a project are linked. -/
structure LinkSettings where
  subSystem : String := ""
  debugInformation : String := "true"
  deriving Repr, DecidableEq

/-- The settings with what one more element gives. -/
def LinkSettings.add (settings : LinkSettings) (values : LinkValues) : LinkSettings where
  subSystem := values.subSystem.getD settings.subSystem
  debugInformation := values.debugInformation.getD settings.debugInformation

/-- What one group gives for the output. -/
structure OutputValues where
  directory : Option String
  targetName : Option String
  deriving Repr, DecidableEq

/-- Things given in the order of a document, each for the configuration with a name, or for all
configurations under the empty name. -/
abbrev Conditioned (α : Type) := List (String × α)

namespace Conditioned

variable {α β : Type}

/-- What is given for exactly this name. -/
def under (name : String) (given : Conditioned α) : List α :=
  (given.filter (·.1 == name)).map (·.2)

/-- What holds in a configuration: what is given for all, then what is given for it. -/
def inForce (configuration : String) (given : Conditioned α) : List α :=
  given.under "" ++ (if configuration = "" then [] else given.under configuration)

/-- The last value given for a configuration, or else for all. -/
def last? (configuration : String) (given : Conditioned α) : Option α :=
  (given.under configuration).getLast?.or (given.under "").getLast?

/-- The values that some of the things give. -/
def giving (value? : α → Option β) (given : Conditioned α) : Conditioned β :=
  given.filterMap fun (name, a) => (value? a).map fun b => (name, b)

end Conditioned

/-! ### Documents -/

/-- A project document. -/
structure ProjectDocument where
  project : SolutionProject
  /-- The macros that do not depend on a configuration. -/
  macros : MacroTable
  items : List Item
  /-- The names of the configurations that the document lists. -/
  configurations : List String
  compile : Conditioned CompileSettings
  link : Conditioned LinkValues
  /-- The words for what the project makes. -/
  kinds : Conditioned String
  output : Conditioned OutputValues
  /-- Does the document import targets of extensions? -/
  hasExtensionTargets : Bool
  deriving Repr, DecidableEq

namespace ProjectDocument

open Xml (Element)

/-- The configuration that a group is for: what stands after the first `==` of its condition,
without blanks and then without quotes around it. -/
def conditionOf (group : Element) : String :=
  match (group.attribute? "Condition").bind (Text.splitOnce? "==") with
  | some (_, value) => Text.trimMatches (fun c => c == '\'' || c == '"') (Text.trim value)
  | none => ""

/-- The kind of a group that its label tells. -/
def label? (group : Element) : Option String :=
  group.attribute? "Label"

/-- Is this a group of items that are configurations? -/
def listsConfigurations (group : Element) : Bool :=
  label? group == some "ProjectConfigurations"

/-- The configurations that a group of items lists. -/
def configurationsOf (group : Element) : List String :=
  if listsConfigurations group then group.elements.filterMap (·.attribute? "Include") else []

/-- The files that a group of items lists. -/
def itemsOf (directory : String) (group : Element) : List Item :=
  if listsConfigurations group then []
  else
    group.elements.filterMap fun item => do
      let kind ← ItemKind.ofElement? item.name
      let path ← item.attribute? "Include"
      pure { kind, path := Path.resolve directory (Path.withSlashes path) }

/-- An include directory as seen from the directory of the document; one that begins with a macro
stays as it is. -/
def resolveInclude (directory path : String) : String :=
  if (Text.dropStart? "$(" path).isSome then path else Path.resolve directory path

/-- What an element gives for compiling. -/
def compileSettingsOf (directory : String) (element : Element) : CompileSettings where
  defines := ((element.childText? "PreprocessorDefinitions").map listEntries).getD []
  includeDirs := ((element.childText? "AdditionalIncludeDirectories").map fun dirs =>
    (listEntries (Path.withSlashes dirs)).map (resolveInclude directory)).getD []
  options := ((element.childText? "AdditionalOptions").map optionWords).getD []

/-- What an element gives for linking. -/
def linkValuesOf (element : Element) : LinkValues where
  subSystem := (element.childText? "SubSystem").map Text.trim
  debugInformation := (element.childText? "GenerateDebugInformation").map Text.trim

/-- What an unlabelled group of properties gives for the output. -/
def outputValuesOf (group : Element) : OutputValues where
  directory := (group.childText? "OutDir").map fun dir => Path.withSlashes (Text.trim dir)
  targetName := (group.childText? "TargetName").map Text.trim

/-- What the elements with a name in a group of definitions give, for the group's configuration. -/
def definitions {α : Type} (name : String) (value : Element → α) (group : Element) :
    Conditioned α :=
  (group.elementsNamed name).map fun element => (conditionOf group, value element)

/-- The document with this element at its top. -/
def ofRoot (project : SolutionProject) (solutionDir : String) (root : Element) :
    ProjectDocument :=
  let directory := Path.directory project.path
  let itemGroups := root.elementsNamed "ItemGroup"
  let definitionGroups := root.elementsNamed "ItemDefinitionGroup"
  let propertyGroups := root.elementsNamed "PropertyGroup"
  let importGroups := root.elementsNamed "ImportGroup"
  { project
    macros := .ofProject solutionDir project.name project.path
    items := itemGroups.flatMap (itemsOf directory)
    configurations := itemGroups.flatMap configurationsOf
    compile := definitionGroups.flatMap (definitions "ClCompile" (compileSettingsOf directory))
    link := definitionGroups.flatMap (definitions "Link" linkValuesOf)
    kinds := (propertyGroups.filter (label? · == some "Configuration")).filterMap fun group =>
      (group.childText? "ConfigurationType").map fun kind => (conditionOf group, Text.trim kind)
    output := (propertyGroups.filter (label? · == none)).map fun group =>
      (conditionOf group, outputValuesOf group)
    hasExtensionTargets := importGroups.any (label? · == some "ExtensionTargets") }

/-- The document that a text describes. -/
def parse (project : SolutionProject) (solutionDir text : String) :
    Except Error ProjectDocument :=
  match Xml.parse (Text.withoutMarks text) with
  | .error fault => .error (.invalidXml project.path fault)
  | .ok root =>
    if root.name = "Project" then .ok (ofRoot project solutionDir root)
    else .error (.wrongRoot project.path "Project")

/-- Reads the document of a project that a solution lists. -/
def load (tree : FileTree) (project : SolutionProject) (solutionDir : String) :
    Except Error ProjectDocument :=
  if tree.has project.path then
    match tree.readText project.path with
    | .ok text => parse project solutionDir text
    | .error fault => .error (.file fault)
  else .error (.pathNotFound project.path)

/-! ### Settings in a configuration -/

/-- The files of the project, in the order of the document. -/
def files (document : ProjectDocument) : List String :=
  document.items.map (·.path)

/-- The macros that the compiler is given. -/
def defines (document : ProjectDocument) (configuration : String) : List String :=
  (document.compile.inForce configuration).flatMap (·.defines)

/-- The include directories, with the references to known macros expanded. -/
def includeDirs (document : ProjectDocument) (configuration : String) : List String :=
  let table := document.macros.within configuration
  ((document.compile.inForce configuration).flatMap (·.includeDirs)).map fun dir =>
    Path.normalize (table.expand dir)

/-- The other options of the compiler. -/
def compileFlags (document : ProjectDocument) (configuration : String) : List String :=
  (document.compile.inForce configuration).flatMap (·.options)

/-- The link settings: those given for the configuration if there are any, or else for all. -/
def linkSettings (document : ProjectDocument) (configuration : String) : LinkSettings :=
  match document.link.under configuration with
  | [] => (document.link.under "").foldl .add {}
  | given => given.foldl .add {}

/-- The word for what the project makes. -/
def kindWord (document : ProjectDocument) (configuration : String) : String :=
  (document.kinds.last? configuration).getD ""

/-- What the project makes. -/
def kind (document : ProjectDocument) (configuration : String) : TargetKind :=
  match document.kindWord configuration with
  | "Application" => .executable
  | "DynamicLibrary" => .sharedLibrary
  | _ => .staticLibrary

/-- The output directory of a project that gives none. -/
def standardOutput (configuration : String) : String :=
  let platform := if configuration = "" then "Win32" else (splitConfiguration configuration).2
  if platform = "Win32" ∨ platform = "x86" then "$(SolutionDir)$(Configuration)/"
  else "$(SolutionDir)$(Platform)/$(Configuration)/"

/-- The output directory, with the references to known macros expanded. -/
def outputDir (document : ProjectDocument) (configuration : String) : String :=
  let given := (document.output.giving (·.directory)).last? configuration
  (document.macros.within configuration).expand (given.getD (standardOutput configuration))

/-- The name of what the project makes, without its extension. -/
def targetName (document : ProjectDocument) (configuration : String) : String :=
  ((document.output.giving (·.targetName)).last? configuration).getD document.project.name

/-- The extension of what a project makes. -/
def binaryExtension : TargetKind → String
  | .executable => ".exe"
  | .sharedLibrary => ".dll"
  | .staticLibrary | .sourceSet => ".lib"

/-- What the project makes. Without a configuration the directory is not known, and the path is
empty. -/
def binaryPath (document : ProjectDocument) (configuration : String) : String :=
  if configuration = "" then ""
  else
    let directory := document.outputDir configuration
    let isClosed := directory = "" ∨ directory.toList.getLast? = some '/'
    (if isClosed then directory else directory ++ "/")
      ++ document.targetName configuration ++ binaryExtension (document.kind configuration)

/-! ### Changes, of which none is supported -/

/-- Would write the document back. -/
def save (_ : ProjectDocument) : Except Error Unit :=
  .error (.notImplemented "VcxProject::save")

/-- Would add a file. -/
def addFile (_ : ProjectDocument) (_path : String) : Except Error ProjectDocument :=
  .error (.notImplemented "VcxProject::add_file")

/-- Would remove a file. -/
def removeFile (_ : ProjectDocument) (_path : String) : Except Error ProjectDocument :=
  .error (.notImplemented "VcxProject::remove_file")

end ProjectDocument

end BuildAtlas.VisualStudio
