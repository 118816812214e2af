import BuildAtlas.Proofs.Discovery
import BuildAtlas.Proofs.Workspace.Session
import BuildAtlas.Workspace.LoggedScan

/-!
# BuildAtlas.Proofs.Workspace.LoggedScan

What is found while a log is written.

The log may be one of the documents, so each document is read from a tree of its own. What it
describes fits its format whatever stands in it (`SourceFormat.fits_of_loadLogged`), and a workspace
is made of such documents or of none (`scanLogged_cases`). But writing a log changes nothing in a
tree except its own file (`Log.WritesIn.note`), and where none of the files that a scan needs is
that file, the scan finds what it finds without a log (`scanLogged_eq`), at whatever times.
-/

namespace BuildAtlas

open Imported (Fits)

/-! ### Documents fit their format -/

theorem VisualStudio.fits_of_loadLogged {log : Log} {settings : ImportSettings} {path : String}
    {found : Imported} (h : (loadLogged log settings path).2 = .ok found) :
    Fits .visualStudio found := by
  cases htext : log.tree.readText path with
  | error fault =>
      simp only [loadLogged, htext] at h
      exact fits_of_load h
  | ok text =>
      have hempty := Solution.empty_not_mem_configurations path text
      simp only [loadLogged, htext] at h
      generalize Solution.parse path text = solution at h hempty
      obtain rfl := Except.ok.inj h
      exact fits_imported settings hempty _

theorem SourceFormat.fits_of_loadLogged {format : SourceFormat} {log : Log}
    {settings : ImportSettings} {path : String} {found : Imported}
    (h : (format.loadLogged log settings path).2 = .ok found) : Fits format found := by
  cases format with
  | gn => exact Gn.fits_of_load h
  | visualStudio => exact VisualStudio.fits_of_loadLogged h
  | codeBlocks => exact CodeBlocks.fits_of_load h

namespace Workspace

theorem fits_of_mem_importAllLogged {log : Log} {settings : ImportSettings} {format : SourceFormat}
    {documents : List String} {found : Imported}
    (h : found ∈ (importAllLogged log settings format documents).2) : found.Fits format := by
  induction documents generalizing log with
  | nil => exact absurd h List.not_mem_nil
  | cons path rest ih =>
      rw [importAllLogged] at h
      rcases List.mem_append.1 h with hone | hrest
      · have hload := FileTree.toOption_eq_some_iff.1 (Option.mem_toList.1 hone)
        exact SourceFormat.fits_of_loadLogged hload
      · exact ih hrest

/-- A scan finds no documents, or documents of one format that fit it. -/
theorem scanLogged_cases {log : Log} {settings : ImportSettings} {root : String}
    {workspace : Workspace} (h : scanLogged log settings root = .ok workspace) :
    ∃ now, workspace = empty root now ∨ ∃ format found,
      workspace = ofImported root format found now ∧ ∀ one ∈ found, one.Fits format := by
  unfold scanLogged at h
  by_cases hroot : log.tree.hasDirectory root = true
  · rw [if_pos hroot] at h
    cases hselect : SourceFormat.select? SourceFormat.all log.tree root with
    | none =>
        rw [hselect] at h
        exact ⟨_, .inl (Except.ok.inj h).symm⟩
    | some selected =>
        obtain ⟨format, documents⟩ := selected
        rw [hselect] at h
        exact ⟨_, .inr ⟨format, _, (Except.ok.inj h).symm,
          fun one hone => fits_of_mem_importAllLogged hone⟩⟩
  · rw [if_neg hroot] at h
    exact nomatch h

end Workspace

/-! ### What writing a log changes -/

variable {log : Log} {file : Option Location} {tree : FileTree} {path : String}

/-- Does the path lead to the file, if there is one? -/
def FileTree.leadsToFile (tree : FileTree) (file : Option Location) (path : String) : Bool :=
  tree.leadsTo (fun place => file == some place) path

theorem FileTree.locate_ne_of_leadsToFile {location : Location}
    (h : tree.leadsToFile (some location) path = false) : tree.locate path ≠ .ok location := by
  intro hlocate
  have hleads : tree.leadsToFile (some location) path = true :=
    leadsTo_eq_true_iff.2 ⟨location, hlocate, beq_self_eq_true _⟩
  exact absurd (h.symm.trans hleads) Bool.false_ne_true

namespace Log

/-- The log is written to this file of the tree, if to any, and nothing else there has changed. -/
structure WritesIn (log : Log) (file : Option Location) (tree : FileTree) : Prop where
  file_eq : log.file = file
  tree_eq : log.tree = tree ∨ ∃ location, file = some location ∧ tree.AgreeExcept location log.tree

theorem writesIn_self (log : Log) : log.WritesIn log.file log.tree :=
  ⟨rfl, .inl rfl⟩

/-- None of the files that a scan of the root needs is that of the log. -/
def IsApart (log : Log) (root : String) : Prop :=
  ∀ path ∈ Workspace.neededFiles log.tree root, log.tree.leadsToFile log.file path = false

instance (log : Log) (root : String) : Decidable (log.IsApart root) :=
  inferInstanceAs (Decidable (∀ path ∈ Workspace.neededFiles log.tree root, _ = false))

namespace WritesIn

variable (h : log.WritesIn file tree)

include h

theorem note (records : List LogRecord) : (log.note records).WritesIn file tree := by
  refine ⟨h.file_eq, ?_⟩
  cases hfile : file with
  | none =>
      have htree : (log.note records).tree = log.tree := by
        rw [Log.note, h.file_eq, hfile]
      rw [htree]
      exact h.tree_eq.imp_right fun ⟨_, hsome, _⟩ => absurd (hfile.symm.trans hsome) nofun
  | some location =>
      have htree : (log.note records).tree
          = log.tree.append location (log.textOf (records.filter log.filter.keeps)) := by
        rw [Log.note, h.file_eq, hfile]
      rw [htree]
      by_cases hthere : ∃ content, log.tree.find? location = some (.file content)
      · have hagree := FileTree.agreeExcept_append hthere
          (log.textOf (records.filter log.filter.keeps))
        refine .inr ⟨location, rfl, ?_⟩
        rcases h.tree_eq with heq | ⟨place, hplace, hbefore⟩
        · rwa [← heq]
        · obtain rfl := Option.some.inj (hfile.symm.trans hplace)
          exact hbefore.trans hagree
      · rw [FileTree.append_of_not_file hthere]
        exact hfile ▸ h.tree_eq

/-- What is the same in all trees that agree except at one file, a log leaves as it is. -/
theorem eq_of_agreeExcept {α : Type} (seen : FileTree → α)
    (hseen : ∀ location tree', tree.AgreeExcept location tree' → seen tree = seen tree') :
    seen log.tree = seen tree := by
  rcases h.tree_eq with heq | ⟨location, -, hagree⟩
  · rw [heq]
  · exact (hseen location log.tree hagree).symm

theorem hasDirectory_eq (path : String) : log.tree.hasDirectory path = tree.hasDirectory path :=
  h.eq_of_agreeExcept (·.hasDirectory path) fun _ _ hagree => hagree.hasDirectory_eq path

theorem has_eq (path : String) : log.tree.has path = tree.has path :=
  h.eq_of_agreeExcept (·.has path) fun _ _ hagree => hagree.has_eq path

theorem select?_eq (formats : List SourceFormat) (root : String) :
    SourceFormat.select? formats log.tree root = SourceFormat.select? formats tree root := by
  refine h.eq_of_agreeExcept (SourceFormat.select? formats · root) ?_
  intro location tree' hagree
  simp only [SourceFormat.select?, SourceFormat.discover_eq hagree]

theorem readText_eq (hpath : tree.leadsToFile file path = false) :
    log.tree.readText path = tree.readText path := by
  rcases h.tree_eq with heq | ⟨location, hfile, hagree⟩
  · rw [heq]
  · rw [hfile] at hpath
    exact (hagree.readText_eq (FileTree.locate_ne_of_leadsToFile hpath)).symm

end WritesIn

end Log

/-! ### Reading beside a log -/

namespace VisualStudio

/-- A project document that is not the log is read as it was before. -/
theorem load_eq_of_writesIn (h : log.WritesIn file tree) {project : SolutionProject}
    (hproject : tree.leadsToFile file project.path = false) (solutionDir : String) :
    ProjectDocument.load log.tree project solutionDir
      = ProjectDocument.load tree project solutionDir := by
  rw [ProjectDocument.load, ProjectDocument.load, h.has_eq, h.readText_eq hproject]

theorem documentsLogged_eq (solution : Solution) {projects : List SolutionProject}
    (h : log.WritesIn file tree)
    (hprojects : ∀ project ∈ projects, tree.leadsToFile file project.path = false) :
    (documentsLogged log solution projects).1.WritesIn file tree ∧
      (documentsLogged log solution projects).2 = projects.filterMap fun project =>
        (ProjectDocument.load tree project solution.directory).toOption := by
  induction projects generalizing log with
  | nil => exact ⟨h, rfl⟩
  | cons project rest ih =>
      rw [List.forall_mem_cons] at hprojects
      rw [documentsLogged, List.filterMap_cons,
        load_eq_of_writesIn h hprojects.1 solution.directory]
      generalize ProjectDocument.load tree project solution.directory = result
      obtain ⟨hafter, hrest⟩ := ih (h.note (projectRecords solution project result)) hprojects.2
      refine ⟨hafter, ?_⟩
      simp only [hrest]
      cases result <;> rfl

theorem loadLogged_eq (h : log.WritesIn file tree) (settings : ImportSettings)
    (hpath : tree.leadsToFile file path = false)
    (hreferred : ∀ other ∈ Workspace.referredFiles tree .visualStudio path,
      tree.leadsToFile file other = false) :
    (loadLogged log settings path).1.WritesIn file tree ∧
      (loadLogged log settings path).2 = load settings tree path := by
  have htext := h.readText_eq hpath
  cases hread : tree.readText path with
  | error fault =>
      rw [hread] at htext
      have hload : load settings log.tree path = load settings tree path := by
        simp only [load, Imported.ofDocument, h.has_eq, htext, hread]
      simp only [loadLogged, htext]
      exact ⟨h.note _, hload⟩
  | ok text =>
      rw [hread] at htext
      have hprojects : ∀ project ∈ (Solution.parse path text).projects,
          tree.leadsToFile file project.path = false := by
        intro project hproject
        refine hreferred project.path ?_
        simp only [Workspace.referredFiles, hread]
        exact List.mem_map_of_mem hproject
      obtain ⟨hafter, hdocuments⟩ := documentsLogged_eq (Solution.parse path text)
        (h.note (solutionRecords path text)) hprojects
      simp only [loadLogged, htext, load, Imported.ofDocument_of_readText hread, hdocuments]
      exact ⟨hafter.note _, rfl⟩

end VisualStudio

/-- A build description is read alike from trees that differ elsewhere, where no toolchain is
asked. -/
theorem Gn.load_eq_of_writesIn (h : log.WritesIn file tree) {settings : ImportSettings}
    (hsettings : settings.systemIncludes = false) (hpath : tree.leadsToFile file path = false) :
    load settings log.tree path = load settings tree path := by
  have hdirs (description : Description) (target : Target) :
      systemDirs settings log.tree description target
        = systemDirs settings tree description target := by
    simp only [systemDirs, hsettings, Bool.false_eq_true, ↓reduceIte]
  refine Imported.ofDocument_congr (h.has_eq path) (h.readText_eq hpath) fun text _ => ?_
  simp only [toProject?, targetSettings, hdirs]

theorem SourceFormat.loadLogged_eq (h : log.WritesIn file tree) {settings : ImportSettings}
    (hsettings : settings.systemIncludes = false) (format : SourceFormat)
    (hpath : tree.leadsToFile file path = false)
    (hreferred : ∀ other ∈ Workspace.referredFiles tree format path,
      tree.leadsToFile file other = false) :
    (format.loadLogged log settings path).1.WritesIn file tree ∧
      (format.loadLogged log settings path).2 = format.load settings tree path := by
  cases format with
  | gn => exact ⟨h, Gn.load_eq_of_writesIn h hsettings hpath⟩
  | visualStudio => exact VisualStudio.loadLogged_eq h settings hpath hreferred
  | codeBlocks =>
      exact ⟨h.note _,
        Imported.ofDocument_congr (h.has_eq path) (h.readText_eq hpath) fun _ _ => rfl⟩

namespace Workspace

theorem importAllLogged_eq (h : log.WritesIn file tree) {settings : ImportSettings}
    (hsettings : settings.systemIncludes = false) {format : SourceFormat} {documents : List String}
    (hneeded : ∀ path ∈ documents, tree.leadsToFile file path = false ∧
      ∀ other ∈ referredFiles tree format path, tree.leadsToFile file other = false) :
    (importAllLogged log settings format documents).2
      = importAll settings tree format documents := by
  induction documents generalizing log with
  | nil => rfl
  | cons path rest ih =>
      rw [List.forall_mem_cons] at hneeded
      obtain ⟨hafter, hload⟩ := format.loadLogged_eq h hsettings hneeded.1.1 hneeded.1.2
      have hrest := ih
        (hafter.note [documentRecord format path (format.load settings tree path)]) hneeded.2
      rw [importAllLogged, importAll, List.filterMap_cons]
      simp only [hload, hrest, importAll]
      cases format.load settings tree path <;> rfl

/-- What a scan of a root finds, or an empty workspace where the root cannot be scanned. -/
def scanOrEmpty (settings : ImportSettings) (tree : FileTree) (root : String) (now : Time) :
    Workspace :=
  (scan settings tree root now).toOption.getD (.empty root now)

theorem scanOrEmpty_foundAt (settings : ImportSettings) (tree : FileTree) (root : String)
    (now later : Time) :
    scanOrEmpty settings tree root later = (scanOrEmpty settings tree root now).foundAt later := by
  rw [scanOrEmpty, scanOrEmpty, scan_foundAt settings tree root now later]
  cases scan settings tree root now <;> rfl

/-- A log that is none of the files that a scan needs does not change what it finds. -/
theorem scanLogged_eq (h : log.WritesIn file tree) {settings : ImportSettings}
    (hsettings : settings.systemIncludes = false) {root : String}
    (hneeded : ∀ path ∈ neededFiles tree root, tree.leadsToFile file path = false) :
    ∃ now, scanLogged log settings root = scan settings tree root now := by
  rw [scanLogged, h.hasDirectory_eq root, h.select?_eq]
  unfold scan
  split
  · cases hselect : SourceFormat.select? SourceFormat.all tree root with
    | none => exact ⟨_, rfl⟩
    | some selected =>
        obtain ⟨format, documents⟩ := selected
        rw [neededFiles, hselect, List.forall_mem_append, List.forall_mem_flatMap] at hneeded
        have himport := importAllLogged_eq (h.note (listingRecords log.tree root format)) hsettings
          fun path hpath => ⟨hneeded.1 path hpath, hneeded.2 path hpath⟩
        exact ⟨_, congrArg (fun found => Except.ok (ofImported root format found _)) himport⟩
  · exact ⟨Time.start, rfl⟩

end Workspace

end BuildAtlas
