import BuildAtlas.Workspace

/-!
# BuildAtlas.Workspace.Scan

Scanning a root for build metadata.

The first format that has documents below the root is the one that counts, even if none of its
documents can be imported. A document that cannot be imported adds nothing.
-/

namespace BuildAtlas.Workspace

/-- What the documents describe, without those that cannot be imported. -/
def importAll (settings : ImportSettings) (tree : FileTree) (format : SourceFormat)
    (documents : List String) : List Imported :=
  documents.filterMap fun path => (format.load settings tree path).toOption

/-- The workspace that documents of a format describe. -/
def ofImported (root : String) (format : SourceFormat) (found : List Imported) (now : Time) :
    Workspace :=
  ofProjects root (some format) (found.flatMap (·.projects))
    (found.flatMap (·.configurations)).eraseDups now

/-- The workspace of a root, which has to be a directory. The time is only noted in it, so one who
does not ask for it need not give it. -/
def scan (settings : ImportSettings) (tree : FileTree) (root : String)
    (now : Time := Time.start) : Except Error Workspace :=
  if tree.hasDirectory root then
    match SourceFormat.select? SourceFormat.all tree root with
    | none => .ok (empty root now)
    | some (format, documents) =>
      .ok (ofImported root format (importAll settings tree format documents) now)
  else .error (.pathNotFound root)

/-! ### What a scan looks at -/

/-- The directories whose files a scan lists. -/
def listedDirectories (root : String) : List String :=
  [root, Path.join root Imported.buildFiles]

/-- The files that a document of a format refers to, as far as the tree tells. -/
def referredFiles (tree : FileTree) (format : SourceFormat) (path : String) : List String :=
  match format, tree.readText path with
  | .visualStudio, .ok text => (VisualStudio.Solution.parse path text).projects.map (·.path)
  | _, _ => []

/-- The files whose content a scan needs, as far as the tree tells: the documents of the format
that counts, and the documents that they refer to. -/
def neededFiles (tree : FileTree) (root : String) : List String :=
  match SourceFormat.select? SourceFormat.all tree root with
  | none => []
  | some (format, documents) => documents ++ documents.flatMap (referredFiles tree format)

end BuildAtlas.Workspace
