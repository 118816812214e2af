import BuildAtlas.CodeBlocks.Records
import BuildAtlas.Log
import BuildAtlas.VisualStudio.Records
import BuildAtlas.Workspace.Scan

/-!
# BuildAtlas.Workspace.LoggedScan

Scanning while a log is written.

What is noted about one document may stand in the next one, when that is the log. So the documents
are read one after the other, each from the tree as the records before it leave it. Records that
nothing is read after are left out, those of a build description among them, of which there is one
only.
-/

namespace BuildAtlas

/-! ### Solutions -/

namespace VisualStudio

/-- The documents of a solution's projects, read one after the other, and the log after that. -/
def documentsLogged (log : Log) (solution : Solution) :
    List SolutionProject → Log × List ProjectDocument
  | [] => (log, [])
  | project :: projects =>
    let result := ProjectDocument.load log.tree project solution.directory
    let (log, documents) :=
      documentsLogged (log.note (projectRecords solution project result)) solution projects
    (log, result.toOption.toList ++ documents)

/-- What a solution describes, and the log after it is read. -/
def loadLogged (log : Log) (settings : ImportSettings) (path : String) :
    Log × Except Error Imported :=
  match log.tree.readText path with
  | .error _ =>
    let records := if log.tree.has path then [] else [missingRecord path]
    (log.note records, load settings log.tree path)
  | .ok text =>
    let solution := Solution.parse path text
    let (log, documents) :=
      documentsLogged (log.note (solutionRecords path text)) solution solution.projects
    let found := imported settings solution documents
    (log.note [importedRecord solution found], .ok found)

end VisualStudio

/-! ### Documents -/

/-- What a document of a format describes, and the log after it is read. -/
def SourceFormat.loadLogged (log : Log) (settings : ImportSettings) (path : String) :
    SourceFormat → Log × Except Error Imported
  | .gn => (log, Gn.load settings log.tree path)
  | .visualStudio => VisualStudio.loadLogged log settings path
  | .codeBlocks =>
    (log.note (CodeBlocks.records log.tree path), CodeBlocks.load log.tree path)

namespace Workspace

/-- What is noted about a document after it is imported. -/
def documentRecord (format : SourceFormat) (path : String) : Except Error Imported → LogRecord
  | .error e =>
    { level := .warn
      source := .scan
      lineNumber := 84
      message := "Failed to import " ++ path ++ ": " ++ e.explanation }
  | .ok found =>
    { level := .debug
      source := .scan
      lineNumber := 68
      message := "Imported build metadata"
      details := [("importer", .name format.name), ("path", .path path),
        ("projects", .count found.projects.length),
        ("configurations", .count found.configurations.length)] }

/-- What the documents describe, read one after the other, and the log after that. -/
def importAllLogged (log : Log) (settings : ImportSettings) (format : SourceFormat) :
    List String → Log × List Imported
  | [] => (log, [])
  | path :: paths =>
    let (after, result) := format.loadLogged log settings path
    let (log, found) :=
      importAllLogged (after.note [documentRecord format path result]) settings format paths
    (log, result.toOption.toList ++ found)

/-- What is noted while documents are looked for: that there are no build files. A build description
is found before they are looked at. -/
def listingRecords (tree : FileTree) (root : String) : SourceFormat → List LogRecord
  | .gn => []
  | _ =>
    let path := Path.join root Imported.buildFiles
    match tree.lookup path with
    | .ok _ => []
    | .error fault =>
      [{ level := .debug
         source := .listing
         lineNumber := 87
         message := "Failed to access directory entry: IO error for operation on " ++ path ++ ": "
           ++ fault.message }]

/-- The workspace of a root, which has to be a directory, found while a log is written. When all is
read, the clock gives the time of the scan. -/
def scanLogged (log : Log) (settings : ImportSettings) (root : String) : Except Error Workspace :=
  if log.tree.hasDirectory root then
    match SourceFormat.select? SourceFormat.all log.tree root with
    | none => .ok (empty root log.clock.now)
    | some (format, documents) =>
      let (log, found) :=
        importAllLogged (log.note (listingRecords log.tree root format)) settings format documents
      .ok (ofImported root format found log.clock.now)
  else .error (.pathNotFound root)

end Workspace

end BuildAtlas
