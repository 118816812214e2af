import BuildAtlas.Text.Split

/-!
# BuildAtlas.VisualStudio.Macros

Macro references in project documents, such as `$(Configuration)`.

A table lists macros with their texts. A value is expanded macro by macro, in the order of the
table, each at its first reference only; a reference to a macro that is not in the table stays.
-/

namespace BuildAtlas.VisualStudio

/-- The configuration and the platform of a name such as `Debug|x64`; without a bar the platform is
empty. -/
def splitConfiguration (name : String) : String × String :=
  (Text.splitOnce? "|" name).getD (name, "")

/-- The short name of a platform. -/
def shortPlatform (platform : String) : String :=
  if platform = "Win32" then "x86" else platform

/-- The text that refers to a macro. -/
def macroReference (name : String) : String :=
  "$(" ++ name ++ ")"

/-- Macros with their texts, in the order in which they are expanded. -/
structure MacroTable where
  entries : List (String × String)
  deriving Repr, DecidableEq

namespace MacroTable

/-- The macros of a project that do not depend on a configuration. The directory ends in a slash. -/
def ofProject (solutionDir projectName projectPath : String) : MacroTable where
  entries := [
    ("SolutionDir",
      if solutionDir.toList.getLast? == some '/' then solutionDir else solutionDir ++ "/"),
    ("ProjectName", projectName),
    ("ProjectPath", projectPath)]

/-- The macros of a configuration. -/
def configurationEntries (configuration : String) : List (String × String) :=
  let (name, platform) := splitConfiguration configuration
  [("PlatformShortName", shortPlatform platform), ("Platform", platform),
    ("Configuration", name), ("ConfigurationName", name)]

/-- The table with the macros of a configuration; the empty name is no configuration. -/
def within (table : MacroTable) (configuration : String) : MacroTable :=
  if configuration = "" then table
  else { entries := table.entries ++ configurationEntries configuration }

/-- Expands the first reference to each macro. -/
def expand (table : MacroTable) (value : String) : String :=
  table.entries.foldl (fun value (name, text) =>
    Text.replaceFirst (macroReference name) text value) value

end MacroTable

end BuildAtlas.VisualStudio
