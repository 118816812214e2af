import BuildAtlas.Proofs.Discovery
import BuildAtlas.Proofs.Workspace.Session

/-!
# BuildAtlas.Proofs.Workspace.Sum

A scan is the sum of what its documents describe.

`contribution` is what one document adds to a scan, which is nothing where it cannot be imported.
`IsSum` says that a workspace has the contributions of a list of documents, one after the other, and
the configuration names of all of them in the order in which they first occur. The scan of a root is
the sum of the documents that the first format with any finds there, and when one of them is changed
so that it cannot be imported, the scan is the sum of the others as they were before.
-/

namespace BuildAtlas

/-! ### The format that counts -/

namespace SourceFormat

/-- The first of the formats that has documents below a root. -/
def first? (formats : List SourceFormat) (tree : FileTree) (root : String) : Option SourceFormat :=
  formats.find? fun format => format.discover tree root ≠ []

theorem select?_eq (formats : List SourceFormat) (tree : FileTree) (root : String) :
    select? formats tree root
      = (first? formats tree root).map fun format => (format, format.discover tree root) := by
  induction formats with
  | nil => rfl
  | cons format rest ih =>
      rw [select?, List.findSome?_cons, first?, List.find?_cons]
      cases hdocuments : format.discover tree root with
      | nil => simpa [hdocuments, select?, first?] using ih
      | cons path paths => simp [hdocuments]

theorem first?_eq_of_agreeExcept {tree tree' : FileTree} {location : Location}
    (h : tree.AgreeExcept location tree') (formats : List SourceFormat) (root : String) :
    first? formats tree root = first? formats tree' root := by
  simp only [first?, discover_eq h]

end SourceFormat

namespace Workspace

/-! ### Contributions -/

/-- What a document adds to a scan; one that cannot be imported adds nothing. -/
def contribution (settings : ImportSettings) (tree : FileTree) (format : SourceFormat)
    (path : String) : Imported :=
  match format.load settings tree path with
  | .ok found => found
  | .error _ => {}

/-- The workspace has the contributions of the documents, in their order. -/
structure IsSum (settings : ImportSettings) (tree : FileTree) (root : String)
    (format : SourceFormat) (documents : List String) (workspace : Workspace) : Prop where
  root_eq : workspace.root = root
  format_eq : workspace.format = some format
  projects_eq : workspace.projects
    = documents.flatMap fun path => (contribution settings tree format path).projects
  /-- Each name stands where it first occurs. -/
  configurations : FirstOccurrences
    (documents.flatMap fun path => (contribution settings tree format path).configurations)
    workspace.configurations

theorem flatMap_importAll {α : Type} {settings : ImportSettings} {tree : FileTree}
    {format : SourceFormat} {f : Imported → List α} (hf : f {} = []) (documents : List String) :
    (importAll settings tree format documents).flatMap f
      = documents.flatMap fun path => f (contribution settings tree format path) := by
  induction documents with
  | nil => rfl
  | cons path rest ih =>
      rw [importAll, List.filterMap_cons, List.flatMap_cons, ← ih, contribution]
      cases format.load settings tree path with
      | ok found => rfl
      | error e =>
          rw [hf]
          rfl

theorem isSum_ofImported (settings : ImportSettings) (tree : FileTree) (root : String)
    (format : SourceFormat) (documents : List String) (now : Time) :
    IsSum settings tree root format documents
      (ofImported root format (importAll settings tree format documents) now) where
  root_eq := rfl
  format_eq := rfl
  projects_eq := flatMap_importAll rfl documents
  configurations := by
    rw [← flatMap_importAll (f := (·.configurations)) rfl documents]
    exact firstOccurrences_eraseDups _

theorem scan_eq {settings : ImportSettings} {tree : FileTree} {root : String} {now : Time}
    (hroot : tree.hasDirectory root = true) :
    scan settings tree root now = .ok (match SourceFormat.first? SourceFormat.all tree root with
      | none => empty root now
      | some format =>
        ofImported root format
          (importAll settings tree format (format.discover tree root)) now) := by
  rw [scan, if_pos hroot, SourceFormat.select?_eq]
  cases SourceFormat.first? SourceFormat.all tree root with
  | none => rfl
  | some format => rfl

/-- A scan finds no documents, or it is the sum of those of a format. -/
theorem scan_cases {settings : ImportSettings} {tree : FileTree} {root : String} {now : Time}
    {workspace : Workspace} (h : scan settings tree root now = .ok workspace) :
    workspace = empty root now ∨
      ∃ format, IsSum settings tree root format (format.discover tree root) workspace := by
  have hroot : tree.hasDirectory root = true := by
    by_contra hroot
    rw [scan, if_neg hroot] at h
    exact nomatch h
  rw [scan_eq hroot] at h
  obtain rfl := Except.ok.inj h
  cases SourceFormat.first? SourceFormat.all tree root with
  | none => exact .inl rfl
  | some format => exact .inr ⟨format, isSum_ofImported settings tree root format _ now⟩

/-- The scan of a directory is the sum of the documents of the format that counts. -/
theorem exists_scan_eq_sum {settings : ImportSettings} {tree : FileTree} {root : String}
    {format : SourceFormat} (now : Time) (hroot : tree.hasDirectory root = true)
    (hformat : SourceFormat.first? SourceFormat.all tree root = some format) :
    ∃ workspace, scan settings tree root now = .ok workspace ∧
      IsSum settings tree root format (format.discover tree root) workspace := by
  refine ⟨ofImported root format (importAll settings tree format (format.discover tree root)) now,
    ?_, isSum_ofImported settings tree root format _ now⟩
  rw [scan_eq hroot, hformat]

/-- Where one document can no longer be imported, the others are imported as before. -/
theorem importAll_eq_of_error {settings : ImportSettings} {tree tree' : FileTree}
    {format : SourceFormat} {documents : List String} {changed : String} {e : Error}
    (herror : format.load settings tree' changed = .error e)
    (hsame : ∀ path ∈ documents, path ≠ changed →
      format.load settings tree path = format.load settings tree' path) :
    importAll settings tree' format documents
      = importAll settings tree format (documents.filter (· != changed)) := by
  rw [importAll, importAll, List.filterMap_filter]
  refine List.filterMap_congr fun path hpath => ?_
  by_cases h : path = changed
  · simp [h, herror, Except.toOption]
  · simp [h, hsame path hpath h]

/-- A document that is changed so that it cannot be imported leaves the sum of the others. -/
theorem exists_scan_eq_sum_of_error {settings : ImportSettings} {tree tree' : FileTree}
    {root : String} {format : SourceFormat} {location : Location} {changed : String} {e : Error}
    (now : Time) (hnames : tree.WellNamed) (hroot : tree.hasDirectory root = true)
    (hformat : SourceFormat.first? SourceFormat.all tree root = some format)
    (hchanged : changed ∈ format.discover tree root) (hlocate : tree.locate changed = .ok location)
    (hagree : tree.AgreeExcept location tree')
    (herror : format.load settings tree' changed = .error e) :
    ∃ workspace, scan settings tree' root now = .ok workspace ∧
      IsSum settings tree root format ((format.discover tree root).erase changed) workspace := by
  have himport := importAll_eq_of_error herror fun path hpath hne =>
    SourceFormat.load_eq hnames hagree settings hchanged hlocate hpath hne
  have hroot' : tree'.hasDirectory root = true := hagree.hasDirectory_eq root ▸ hroot
  have hformat' : SourceFormat.first? SourceFormat.all tree' root = some format :=
    SourceFormat.first?_eq_of_agreeExcept hagree SourceFormat.all root ▸ hformat
  refine ⟨ofImported root format
    (importAll settings tree format ((format.discover tree root).erase changed)) now, ?_,
    isSum_ofImported settings tree root format _ now⟩
  rw [scan_eq hroot', hformat', (SourceFormat.nodup_discover hnames format root).erase_eq_filter,
    ← himport]
  simp only [SourceFormat.discover_eq hagree]

/-- The scan of a directory is the sum of the documents of the first format that has any there. A
document that is changed so that it cannot be imported leaves the sum of the others as they were,
and the format still counts. -/
theorem scan_isSum (settings : ImportSettings) {tree : FileTree} {root : String} (now : Time)
    (hnames : tree.WellNamed) (hroot : tree.hasDirectory root = true) :
    let first := [SourceFormat.gn, .visualStudio, .codeBlocks].find? fun format =>
      format.discover tree root ≠ []
    (first = none → scan settings tree root now = .ok (empty root now)) ∧
    ∀ format, first = some format →
      let documents := format.discover tree root
      format.Discovers tree root documents ∧ documents.Nodup ∧
      (∃ workspace, scan settings tree root now = .ok workspace ∧
        IsSum settings tree root format documents workspace) ∧
      ∀ tree' later location changed e, changed ∈ documents → tree.locate changed = .ok location →
        tree.AgreeExcept location tree' → format.load settings tree' changed = .error e →
        ∃ workspace, scan settings tree' root later = .ok workspace ∧
          IsSum settings tree root format (documents.erase changed) workspace := by
  intro first
  have hfirst : first = SourceFormat.first? SourceFormat.all tree root := rfl
  refine ⟨fun hnone => ?_, fun format hformat => ⟨?_, ?_, ?_, ?_⟩⟩
  · rw [scan_eq hroot, ← hfirst, hnone]
  · exact SourceFormat.discovers_discover hnames format root
  · exact SourceFormat.nodup_discover hnames format root
  · exact exists_scan_eq_sum now hroot (hfirst ▸ hformat)
  · intro tree' later location changed e hchanged hlocate hagree herror
    exact exists_scan_eq_sum_of_error later hnames hroot (hfirst ▸ hformat) hchanged hlocate hagree
      herror

/-- A tree with one solution in the root and one among the build files, each with one project. -/
def twoSolutions : FileTree where
  directories := [["BuildFiles"]]
  files := [
    (["app.vcxproj"], "<Project/>".toUTF8),
    (["a.sln"],
      "Project() = app, app.vcxproj, A\nGlobalSection(SolutionConfigurationPlatforms)\nD".toUTF8),
    (["BuildFiles", "lib.vcxproj"], "<Project/>".toUTF8),
    (["BuildFiles", "b.sln"],
      "Project() = lib, lib.vcxproj, B\nGlobalSection(SolutionConfigurationPlatforms)\nR".toUTF8)]

/-- The projects of two solutions follow each other. When the first solution is no longer text, the
project of the second is left as it was. -/
theorem scan_isSum_twoSolutions :
    (∃ workspace, scan {} twoSolutions "." ⟨1⟩ = .ok workspace ∧
      IsSum {} twoSolutions "." .visualStudio ["./a.sln", "./BuildFiles/b.sln"] workspace ∧
      workspace.projects.map (·.name) = ["app", "lib"]) ∧
    ∃ workspace, scan {} (twoSolutions.putFile ["a.sln"] ⟨#[0xFF]⟩) "." ⟨2⟩ = .ok workspace ∧
      IsSum {} twoSolutions "." .visualStudio ["./BuildFiles/b.sln"] workspace ∧
      workspace.projects.map (·.name) = ["lib"] := by
  have hdocuments : SourceFormat.visualStudio.discover twoSolutions "."
      = ["./a.sln", "./BuildFiles/b.sln"] := by
    decide +kernel
  have hfirst : [SourceFormat.gn, .visualStudio, .codeBlocks].find? (fun format =>
      format.discover twoSolutions "." ≠ []) = some .visualStudio := by
    decide +kernel
  have hagree : twoSolutions.AgreeExcept ["a.sln"] (twoSolutions.putFile ["a.sln"] ⟨#[0xFF]⟩) :=
    FileTree.agreeExcept_putFile ⟨_, rfl⟩ rfl _
  have herror : SourceFormat.visualStudio.load {} (twoSolutions.putFile ["a.sln"] ⟨#[0xFF]⟩)
      "./a.sln" = .error (.file .notText) := by
    rfl
  have happ : (contribution {} twoSolutions .visualStudio "./a.sln").projects.map (·.name)
      = ["app"] := by
    decide +kernel
  have hlib :
      (contribution {} twoSolutions .visualStudio "./BuildFiles/b.sln").projects.map (·.name)
        = ["lib"] := by
    decide +kernel
  have hnames : twoSolutions.WellNamed := by decide
  have hroot : twoSolutions.hasDirectory "." = true := by decide
  obtain ⟨-, hsum⟩ := scan_isSum {} ⟨1⟩ hnames hroot
  obtain ⟨-, -, ⟨workspace, hscan, hboth⟩, hchange⟩ := hsum .visualStudio hfirst
  rw [hdocuments] at hboth hchange
  obtain ⟨changed, hscan', hone⟩ :=
    hchange _ ⟨2⟩ ["a.sln"] "./a.sln" _ (by decide) rfl hagree herror
  refine ⟨⟨workspace, hscan, hboth, ?_⟩, changed, hscan', hone, ?_⟩
  · simp [hboth.projects_eq, happ, hlib]
  · rw [hone.projects_eq, show ["./a.sln", "./BuildFiles/b.sln"].erase "./a.sln"
      = ["./BuildFiles/b.sln"] by decide]
    simp [hlib]

end Workspace

end BuildAtlas
