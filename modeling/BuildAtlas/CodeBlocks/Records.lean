import BuildAtlas.CodeBlocks
import BuildAtlas.Log.Record

/-!
# BuildAtlas.CodeBlocks.Records

What is noted while a project file is imported. A project file that cannot be read gives rise to
nothing here; the scan notes the fault.
-/

namespace BuildAtlas.CodeBlocks

open Xml (Element)

/-- What is noted about a project file that is not there. -/
def missingRecord (path : String) : LogRecord where
  level := .warn
  source := .codeBlocks
  lineNumber := 195
  message := "Code::Blocks project not found: " ++ path

/-- What is noted about one file's element: the targets that it names and that no title gives. -/
def unitRecords (titles : List String) (unit : Element) : List LogRecord :=
  match unit.attribute? "filename" with
  | none => []
  | some name =>
    ((owners unit).filter (!titles.contains ·)).map fun owner =>
      { level := .debug
        source := .codeBlocks
        lineNumber := 138
        message := "Unit " ++ name ++ " references unknown target " ++ owner }

/-- What is noted about a target with these files, if it makes no project. -/
def targetRecord? (target : Target) (files : List String) : Option LogRecord :=
  match target.projectKind? files with
  | some _ => none
  | none =>
    some
      { level := .debug
        source := .codeBlocks
        lineNumber := 151
        message := "Skipping Code::Blocks target " ++ target.title ++ " (type " ++ target.kind
          ++ ")" }

/-- What is noted when a project file is imported. -/
def importedRecord (path : String) (projectCount targetCount : Nat) : LogRecord where
  level := .info
  source := .codeBlocks
  lineNumber := 214
  message := "Imported " ++ toString projectCount ++ " of " ++ toString targetCount
    ++ " Code::Blocks targets from " ++ path

/-- What is noted about a project file with this element for the project. -/
def projectRecords (path : String) : Option Element → List LogRecord
  | none =>
    [{ level := .warn
       source := .codeBlocks
       lineNumber := 106
       message := "No <Project> element in " ++ path },
     importedRecord path 0 0]
  | some project =>
    let targets := targetsOf (Path.directory path) project
    let skipped := targets.filterMap fun (target, files) => targetRecord? target files
    (project.elementsNamed "Unit").flatMap (unitRecords (targets.map (·.1.title))) ++ skipped
      ++ [importedRecord path (targets.length - skipped.length) targets.length]

/-- What is noted about a project file. -/
def records (tree : FileTree) (path : String) : List LogRecord :=
  if tree.has path then
    match tree.readText path with
    | .error _ => []
    | .ok text =>
      match projectElement? path text with
      | .error _ => []
      | .ok project => projectRecords path project
  else [missingRecord path]

end BuildAtlas.CodeBlocks
