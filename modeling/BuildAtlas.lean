import BuildAtlas.CodeBlocks
import BuildAtlas.CodeBlocks.Records
import BuildAtlas.CommandLine
import BuildAtlas.CommandLine.Arguments
import BuildAtlas.CompileFlags
import BuildAtlas.EditorDocument
import BuildAtlas.EditorDocument.Codec
import BuildAtlas.Environment
import BuildAtlas.Error
import BuildAtlas.FileGroup
import BuildAtlas.FileTree
import BuildAtlas.Gn.Description
import BuildAtlas.Gn.EnvironmentBlock
import BuildAtlas.Gn.Import
import BuildAtlas.ImportSettings
import BuildAtlas.Imported
import BuildAtlas.Json.Codec
import BuildAtlas.Json.Reader
import BuildAtlas.Json.Record
import BuildAtlas.Json.Value
import BuildAtlas.Log
import BuildAtlas.Log.Filter
import BuildAtlas.Log.Pattern
import BuildAtlas.Log.Record
import BuildAtlas.LogSettings
import BuildAtlas.Main
import BuildAtlas.Path
import BuildAtlas.Path.Lexical
import BuildAtlas.Project
import BuildAtlas.Project.Codec
import BuildAtlas.Project.Descriptor
import BuildAtlas.Proofs.CodeBlocks.Units
import BuildAtlas.Proofs.CommandLine.Arguments
import BuildAtlas.Proofs.CommandLine.Outcome
import BuildAtlas.Proofs.CompileFlags.Grammar
import BuildAtlas.Proofs.CompileFlags.Repeats
import BuildAtlas.Proofs.CompileFlags.Settings
import BuildAtlas.Proofs.CompileFlags.Standards
import BuildAtlas.Proofs.Discovery
import BuildAtlas.Proofs.FileTree
import BuildAtlas.Proofs.FirstOccurrences
import BuildAtlas.Proofs.Gn.EnvironmentBlock
import BuildAtlas.Proofs.Gn.Import
import BuildAtlas.Proofs.Imported
import BuildAtlas.Proofs.Json.Lawful
import BuildAtlas.Proofs.Json.Reader
import BuildAtlas.Proofs.Json.Record
import BuildAtlas.Proofs.Json.Scalar
import BuildAtlas.Proofs.LastGiven
import BuildAtlas.Proofs.ListedFiles
import BuildAtlas.Proofs.LogSettings
import BuildAtlas.Proofs.Path
import BuildAtlas.Proofs.Path.Canonical
import BuildAtlas.Proofs.Path.Drive
import BuildAtlas.Proofs.Path.Exit
import BuildAtlas.Proofs.Path.FileName
import BuildAtlas.Proofs.Project.Configurations
import BuildAtlas.Proofs.Project.FileSet
import BuildAtlas.Proofs.Project.Files
import BuildAtlas.Proofs.Project.Settings
import BuildAtlas.Proofs.Project.Spelling
import BuildAtlas.Proofs.RoundTrip
import BuildAtlas.Proofs.SortedMap
import BuildAtlas.Proofs.Text
import BuildAtlas.Proofs.Text.Utf8
import BuildAtlas.Proofs.VisualStudio.ActiveConfiguration
import BuildAtlas.Proofs.VisualStudio.BinaryPath
import BuildAtlas.Proofs.VisualStudio.Blocks
import BuildAtlas.Proofs.VisualStudio.ConditionScope
import BuildAtlas.Proofs.VisualStudio.Conditions
import BuildAtlas.Proofs.VisualStudio.DocumentOrder
import BuildAtlas.Proofs.VisualStudio.Guid
import BuildAtlas.Proofs.VisualStudio.IncludeDirs
import BuildAtlas.Proofs.VisualStudio.ListEntries
import BuildAtlas.Proofs.VisualStudio.Macros
import BuildAtlas.Proofs.VisualStudio.Members
import BuildAtlas.Proofs.VisualStudio.Noninterference
import BuildAtlas.Proofs.VisualStudio.ProjectKey
import BuildAtlas.Proofs.VisualStudio.Reach
import BuildAtlas.Proofs.VisualStudio.References
import BuildAtlas.Proofs.VisualStudio.Sections
import BuildAtlas.Proofs.VisualStudio.Solution
import BuildAtlas.Proofs.Workspace.Documents
import BuildAtlas.Proofs.Workspace.FullName
import BuildAtlas.Proofs.Workspace.LoggedScan
import BuildAtlas.Proofs.Workspace.Replacement
import BuildAtlas.Proofs.Workspace.Selectable
import BuildAtlas.Proofs.Workspace.Session
import BuildAtlas.Proofs.Workspace.Sum
import BuildAtlas.Proofs.Xml.Document
import BuildAtlas.Selection
import BuildAtlas.SortedMap
import BuildAtlas.SourceFormat
import BuildAtlas.Text.Blank
import BuildAtlas.Text.Digit
import BuildAtlas.Text.Letter
import BuildAtlas.Text.Lossy
import BuildAtlas.Text.Range
import BuildAtlas.Text.Report
import BuildAtlas.Text.Size
import BuildAtlas.Text.Split
import BuildAtlas.Time
import BuildAtlas.VisualStudio.Guid
import BuildAtlas.VisualStudio.Import
import BuildAtlas.VisualStudio.Macros
import BuildAtlas.VisualStudio.ProjectDocument
import BuildAtlas.VisualStudio.Records
import BuildAtlas.VisualStudio.Solution
import BuildAtlas.Workspace
import BuildAtlas.Workspace.LoggedScan
import BuildAtlas.Workspace.Scan
import BuildAtlas.Xml.Document
import BuildAtlas.Xml.Fault
import BuildAtlas.Xml.Name
import BuildAtlas.Xml.Namespace
import BuildAtlas.Xml.Text
import BuildAtlas.Xml.Token
