import BuildAtlas.Log.Record
import BuildAtlas.VisualStudio.Import

/-!
# BuildAtlas.VisualStudio.Records

What is noted while a solution is imported.

First comes what the solution's own text gives rise to, then what each of its projects does, and
last what the import came to.
-/

namespace BuildAtlas.VisualStudio

/-- What is noted about a solution that is not there. -/
def missingRecord (path : String) : LogRecord where
  level := .warn
  source := .visualStudio
  lineNumber := 131
  message := "Solution not found: " ++ path

/-- The line at which a malformed entry is noted, by what is wrong with it: it has too few parts, or
the first of them has no equals sign. -/
def malformedLine (line : String) : Nat :=
  if (Text.splitOn ',' line).length < 3 then 101 else 106

/-- What is noted about an entry of a solution. -/
def entryRecord? (path : String) : SolutionEntry → Option LogRecord
  | .malformed line =>
    some
      { level := .warn
        source := .solution
        lineNumber := malformedLine line
        message := "Malformed project entry in " ++ path ++ ": " ++ line }
  | .project name document _ =>
    if Solution.isDocumentPath document then none
    else
      some
        { level := .debug
          source := .solution
          lineNumber := 118
          message := "Skipping non-vcxproj solution entry " ++ name }
  | _ => none

/-- What is noted about a solution's text. -/
def solutionRecords (path text : String) : List LogRecord :=
  let entries := SolutionEntry.ofText text
  let solution := Solution.ofEntries path entries
  entries.filterMap (entryRecord? path) ++
    [{ level := .debug
       source := .solution
       lineNumber := 89
       message := "Solution " ++ path ++ " lists " ++ toString solution.projects.length
         ++ " projects and " ++ toString solution.configurations.length ++ " configurations" }]

/-- What is noted about the document of a project of a solution. -/
def projectRecords (solution : Solution) (project : SolutionProject) :
    Except Error ProjectDocument → List LogRecord
  | .error e =>
    [{ level := .warn
       source := .visualStudio
       lineNumber := 145
       message := "Skipping project " ++ project.name ++ " (" ++ project.path ++ "): "
         ++ e.explanation }]
  | .ok document =>
    let withoutActive := solution.configurations.filter
      (solution.projectConfiguration project.guid · == "")
    { level := .debug
      source := .projectDocument
      lineNumber := 157
      message := "Parsed " ++ project.path ++ " with " ++ toString document.items.length
        ++ " files and " ++ toString (document.compile.map (·.1)).eraseDups.length
        ++ " conditions" }
      :: withoutActive.map fun configuration =>
        { level := .debug
          source := .visualStudio
          lineNumber := 89
          message := project.name ++ " has no ActiveCfg for " ++ configuration }

/-- What is noted when a solution is imported. -/
def importedRecord (solution : Solution) (found : Imported) : LogRecord where
  level := .info
  source := .visualStudio
  lineNumber := 149
  message := "Imported " ++ toString found.projects.length ++ " of "
    ++ toString solution.projects.length ++ " projects with "
    ++ toString solution.configurations.length ++ " configurations from " ++ solution.path

end BuildAtlas.VisualStudio
