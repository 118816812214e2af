import BuildAtlas.Proofs.FileTree
import BuildAtlas.SourceFormat
import Mathlib.Data.List.Nodup

/-!
# BuildAtlas.Proofs.Discovery

The documents that a format finds below a root.

`Discovers` says which documents these are and in which order: a root before its build files, and
in each directory the files with the extension of the format, by name. No document is found twice
(`nodup_discover`), and two documents never lie at one location (`eq_of_locate_eq`). With that a
change of one document touches no other: the same documents are found (`discover_eq`), and each of
the others is imported as before (`load_eq`). A solution reads more files than itself, but only
project documents, and these have other names.
-/

namespace BuildAtlas

variable {tree tree' : FileTree} {root : String} {location : Location}

/-! ### What importing reads -/

theorem Imported.ofDocument_congr {path : String} {read read' : String → Except Error Imported}
    (hhas : tree.has path = tree'.has path) (htext : tree.readText path = tree'.readText path)
    (hread : ∀ text, tree.readText path = .ok text → read text = read' text) :
    ofDocument tree path read = ofDocument tree' path read' := by
  unfold ofDocument
  rw [hhas, ← htext]
  cases hresult : tree.readText path with
  | error fault => rfl
  | ok text => simp only [hread text hresult]

namespace VisualStudio

theorem Solution.projects_ofEntries (path : String) (entries : List SolutionEntry) :
    (ofEntries path entries).projects = entries.filterMap (project? (Path.directory path)) := rfl

/-- The path of a project document ends as every path of one does. -/
theorem getLast?_path_of_mem_projects {path text : String} {project : SolutionProject}
    (h : project ∈ (Solution.parse path text).projects) :
    project.path.toList.getLast? = some 'j' := by
  rw [Solution.parse, Solution.projects_ofEntries] at h
  obtain ⟨entry, -, hentry⟩ := List.mem_filterMap.1 h
  cases entry with
  | configuration name => exact nomatch hentry
  | active guid configuration projectConfiguration => exact nomatch hentry
  | malformed line => exact nomatch hentry
  | project name written guid =>
      simp only [Solution.project?, Option.ite_none_right_eq_some, Option.some.injEq] at hentry
      obtain ⟨hdocument, rfl⟩ := hentry
      rw [Solution.isDocumentPath, Option.isSome_iff_exists] at hdocument
      obtain ⟨front, hfront⟩ := hdocument
      obtain ⟨before, hbefore, -⟩ := Option.map_eq_some_iff.1 hfront
      -- read backwards, the path begins with the word
      have hwritten : written.toList = before.reverse ++ "vcxproj".toList := by
        rw [← List.reverse_reverse written.toList, Text.after?_eq_some_iff.1 hbefore]
        simp
      refine Path.getLast?_resolve (by decide) (by decide) ?_
      rw [Path.withSlashes, String.toList_ofList, hwritten, List.map_append, List.getLast?_append]
      rfl

/-- A change of a file that is no project document leaves the import of other solutions alone. -/
theorem load_eq (h : tree.AgreeExcept location tree') {name : String}
    (hname : location.getLast? = some name) (hend : name.toList.getLast? ≠ some 'j')
    (settings : ImportSettings) {path : String} (hpath : tree.locate path ≠ .ok location) :
    load settings tree path = load settings tree' path := by
  refine Imported.ofDocument_congr (h.has_eq path) (h.readText_eq hpath) fun text _ => ?_
  have hdocuments : documents tree (Solution.parse path text)
      = documents tree' (Solution.parse path text) := by
    rw [documents, documents]
    refine List.filterMap_congr fun project hproject => ?_
    have hother : tree.locate project.path ≠ .ok location := by
      intro hlocate
      obtain ⟨last, hlast, hlastEnd⟩ := FileTree.exists_last_name_of_locate (by decide) (by decide)
        (getLast?_path_of_mem_projects hproject) hlocate
      obtain rfl := Option.some.inj (hname.symm.trans hlast)
      exact hend hlastEnd
    rw [ProjectDocument.load, ProjectDocument.load, h.has_eq, h.readText_eq hother]
  simp only [hdocuments]

end VisualStudio

theorem CodeBlocks.load_eq (h : tree.AgreeExcept location tree') {path : String}
    (hpath : tree.locate path ≠ .ok location) : load tree path = load tree' path :=
  Imported.ofDocument_congr (h.has_eq path) (h.readText_eq hpath) fun _ _ => rfl

/-! ### Listed documents -/

theorem Imported.isName_buildFiles : Path.IsName Imported.buildFiles := by
  constructor <;> decide

namespace FileTree

variable {directory extension path : String} {paths : List String}

/-- A listed path is a directory with a name joined to it. -/
theorem ListedIn.exists_name (hnames : tree.WellNamed) (h : tree.ListedIn directory extension paths)
    (hpath : path ∈ paths) : ∃ name place, path = Path.join directory name ∧ Path.IsName name ∧
      Path.HasExtension name extension ∧ tree.locate directory = .ok place := by
  obtain ⟨names, rfl, -, hmem⟩ := h
  obtain ⟨name, hname, rfl⟩ := List.mem_map.1 hpath
  obtain ⟨hextension, place, content, hplace, -, hfile⟩ := (hmem name).1 hname
  exact ⟨name, place, rfl, hnames.isName hfile, hextension, hplace⟩

/-- A listed path is the directory with the name of the document joined to it. -/
theorem ListedIn.join_container (hnames : tree.WellNamed)
    (h : tree.ListedIn directory extension paths) (hpath : path ∈ paths) :
    Path.join directory (Imported.container path) = path := by
  obtain ⟨name, place, rfl, hname, -, hplace⟩ := h.exists_name hnames hpath
  rw [Imported.container, Path.fileName?_join (steps_of_locate hplace).1 hname, Option.getD_some]

/-- A listed path leads into the directory. -/
theorem ListedIn.exists_location (hnames : tree.WellNamed)
    (h : tree.ListedIn directory extension paths) (hpath : path ∈ paths) {location : Location}
    (hlocate : tree.locate path = .ok location) : ∃ name place, path = Path.join directory name ∧
      Path.HasExtension name extension ∧ tree.locate directory = .ok place ∧
      location = place ++ [name] := by
  obtain ⟨name, place, rfl, hname, hextension, hplace⟩ := h.exists_name hnames hpath
  exact ⟨name, place, rfl, hextension, hplace, eq_of_locate_join hname hplace hlocate⟩

theorem ListedIn.eq_of_locate_eq (hnames : tree.WellNamed)
    (h : tree.ListedIn directory extension paths) {path' : String} (hpath : path ∈ paths)
    (hpath' : path' ∈ paths) (hlocate : tree.locate path = .ok location)
    (hlocate' : tree.locate path' = .ok location) : path = path' := by
  obtain ⟨name, place, rfl, -, hplace, hlocation⟩ := h.exists_location hnames hpath hlocate
  obtain ⟨name', place', rfl, -, hplace', hlocation'⟩ := h.exists_location hnames hpath' hlocate'
  obtain rfl := Except.ok.inj (hplace.symm.trans hplace')
  rw [hlocation] at hlocation'
  rw [List.cons.inj (List.append_cancel_left hlocation') |>.1]

/-- A path into the root and one into the build files lead to different places. -/
theorem ListedIn.locate_ne_of_buildFiles (hnames : tree.WellNamed) {extension' : String}
    {paths' : List String} (h : tree.ListedIn root extension paths)
    (h' : tree.ListedIn (Path.join root Imported.buildFiles) extension' paths') {path' : String}
    (hpath : path ∈ paths) (hpath' : path' ∈ paths') (hlocate : tree.locate path = .ok location) :
    tree.locate path' ≠ .ok location := by
  intro hlocate'
  obtain ⟨name, place, rfl, -, hplace, hlocation⟩ := h.exists_location hnames hpath hlocate
  obtain ⟨name', place', rfl, -, hplace', hlocation'⟩ := h'.exists_location hnames hpath' hlocate'
  obtain rfl := eq_of_locate_join Imported.isName_buildFiles hplace hplace'
  rw [hlocation] at hlocation'
  simpa using congrArg List.length hlocation'

theorem ListedIn.nodup (hnames : tree.WellNamed) (h : tree.ListedIn directory extension paths) :
    paths.Nodup := by
  obtain ⟨names, rfl, hsorted, hmem⟩ := h
  have hnodup : names.Nodup := by
    refine hsorted.imp ?_
    rintro a b hlt rfl
    exact String.lt_irrefl a hlt
  refine List.Nodup.map_on (fun a ha b hb heq => ?_) hnodup
  -- names are read off the joined paths
  obtain ⟨-, place, content, hplace, -, hfile⟩ := (hmem a).1 ha
  obtain ⟨-, place', content', -, -, hfile'⟩ := (hmem b).1 hb
  have hne := (steps_of_locate hplace).1
  have hname := congrArg Path.fileName? heq
  rw [Path.fileName?_join hne (hnames.isName hfile),
    Path.fileName?_join hne (hnames.isName hfile')] at hname
  exact Option.some.inj hname

end FileTree

/-! ### Documents of a format -/

namespace SourceFormat

/-- These are the documents of a format below a root, in the order in which they are imported. -/
def Discovers (format : SourceFormat) (tree : FileTree) (root : String) (paths : List String) :
    Prop :=
  match format with
  | gn => paths = if tree.hasFile (Path.join root "gn.json") then [Path.join root "gn.json"] else []
  | visualStudio => ∃ inRoot inBuildFiles, paths = inRoot ++ inBuildFiles ∧
      tree.ListedIn root "sln" inRoot ∧
      tree.ListedIn (Path.join root Imported.buildFiles) "sln" inBuildFiles
  | codeBlocks => tree.ListedIn (Path.join root Imported.buildFiles) "cbp" paths

theorem discovers_discover (hnames : tree.WellNamed) (format : SourceFormat) (root : String) :
    format.Discovers tree root (format.discover tree root) := by
  cases format with
  | gn => rfl
  | visualStudio =>
      exact ⟨_, _, rfl, FileTree.listedIn_filesWithExtension hnames _ _,
        FileTree.listedIn_filesWithExtension hnames _ _⟩
  | codeBlocks => exact FileTree.listedIn_filesWithExtension hnames _ _

/-- A path into the build files has one piece more than one into the root. -/
theorem join_ne_join_buildFiles {name name' : String} (hroot : root ≠ "") (hname : Path.IsName name)
    (hname' : Path.IsName name') :
    Path.join root name ≠ Path.join (Path.join root Imported.buildFiles) name' := by
  intro heq
  have hpieces := congrArg Path.pieces heq
  rw [Path.pieces_join hroot hname,
    Path.pieces_join (Path.join_ne_empty Imported.isName_buildFiles) hname',
    Path.directoryPieces_join hroot Imported.isName_buildFiles] at hpieces
  simpa using congrArg List.length hpieces

theorem nodup_discover (hnames : tree.WellNamed) (format : SourceFormat) (root : String) :
    (format.discover tree root).Nodup := by
  have hdiscovers := discovers_discover hnames format root
  cases format with
  | gn =>
      rw [hdiscovers]
      split <;> simp
  | visualStudio =>
      obtain ⟨inRoot, inBuildFiles, hpaths, hinRoot, hinBuildFiles⟩ := hdiscovers
      rw [hpaths, List.nodup_append]
      refine ⟨hinRoot.nodup hnames, hinBuildFiles.nodup hnames, fun path hpath other hother => ?_⟩
      obtain ⟨name, place, rfl, hname, -, hplace⟩ := hinRoot.exists_name hnames hpath
      obtain ⟨name', place', rfl, hname', -, -⟩ := hinBuildFiles.exists_name hnames hother
      exact join_ne_join_buildFiles (FileTree.steps_of_locate hplace).1 hname hname'
  | codeBlocks => exact FileTree.ListedIn.nodup hnames hdiscovers

/-- There is one place for a build description. -/
theorem eq_of_mem_discover_gn {path : String} (h : path ∈ gn.discover tree root) :
    path = Path.join root "gn.json" := by
  rw [discover, Gn.discover, List.mem_ite_nil_right, List.mem_singleton] at h
  exact h.2

/-- Two documents do not lie at one location. -/
theorem eq_of_locate_eq (hnames : tree.WellNamed) {format : SourceFormat} {path path' : String}
    (hpath : path ∈ format.discover tree root) (hpath' : path' ∈ format.discover tree root)
    (hlocate : tree.locate path = .ok location) (hlocate' : tree.locate path' = .ok location) :
    path = path' := by
  have hdiscovers := discovers_discover hnames format root
  cases format with
  | gn =>
      exact (eq_of_mem_discover_gn hpath).trans (eq_of_mem_discover_gn hpath').symm
  | visualStudio =>
      obtain ⟨inRoot, inBuildFiles, hpaths, hinRoot, hinBuildFiles⟩ := hdiscovers
      rw [hpaths, List.mem_append] at hpath hpath'
      rcases hpath with hpath | hpath <;> rcases hpath' with hpath' | hpath'
      · exact hinRoot.eq_of_locate_eq hnames hpath hpath' hlocate hlocate'
      · exact absurd hlocate'
          (hinRoot.locate_ne_of_buildFiles hnames hinBuildFiles hpath hpath' hlocate)
      · exact absurd hlocate
          (hinRoot.locate_ne_of_buildFiles hnames hinBuildFiles hpath' hpath hlocate')
      · exact hinBuildFiles.eq_of_locate_eq hnames hpath hpath' hlocate hlocate'
  | codeBlocks =>
      exact FileTree.ListedIn.eq_of_locate_eq hnames hdiscovers hpath hpath' hlocate hlocate'

/-! ### Changes of one document -/

/-- A solution's last name ends as its extension does. -/
theorem exists_solution_name (hnames : tree.WellNamed) {path : String}
    (hpath : path ∈ visualStudio.discover tree root) (hlocate : tree.locate path = .ok location) :
    ∃ name, location.getLast? = some name ∧ name.toList.getLast? ≠ some 'j' := by
  have hlisted : ∃ directory paths, tree.ListedIn directory "sln" paths ∧ path ∈ paths := by
    rcases List.mem_append.1 hpath with hpath | hpath
    · exact ⟨_, _, FileTree.listedIn_filesWithExtension hnames _ _, hpath⟩
    · exact ⟨_, _, FileTree.listedIn_filesWithExtension hnames _ _, hpath⟩
  obtain ⟨directory, paths, hlisted, hpath⟩ := hlisted
  obtain ⟨name, place, -, ⟨stem, -, -, hname⟩, -, rfl⟩ :=
    hlisted.exists_location hnames hpath hlocate
  refine ⟨name, List.getLast?_concat, ?_⟩
  rw [hname, List.getLast?_append]
  simp

theorem discover_eq (h : tree.AgreeExcept location tree') (format : SourceFormat) (root : String) :
    format.discover tree root = format.discover tree' root := by
  cases format with
  | gn => simp only [discover, Gn.discover, h.hasFile_eq]
  | visualStudio => simp only [discover, VisualStudio.discover, h.filesWithExtension_eq]
  | codeBlocks => simp only [discover, CodeBlocks.discover, h.filesWithExtension_eq]

/-- A change of one document leaves the import of the others alone. -/
theorem load_eq (hnames : tree.WellNamed) (h : tree.AgreeExcept location tree')
    (settings : ImportSettings) {format : SourceFormat} {changed path : String}
    (hchanged : changed ∈ format.discover tree root) (hlocate : tree.locate changed = .ok location)
    (hpath : path ∈ format.discover tree root) (hne : path ≠ changed) :
    format.load settings tree path = format.load settings tree' path := by
  have hother : tree.locate path ≠ .ok location := fun hsame =>
    hne (eq_of_locate_eq hnames hpath hchanged hsame hlocate)
  cases format with
  | gn =>
      -- there is one document only
      exact absurd ((eq_of_mem_discover_gn hpath).trans (eq_of_mem_discover_gn hchanged).symm) hne
  | visualStudio =>
      obtain ⟨name, hname, hend⟩ := exists_solution_name hnames hchanged hlocate
      exact VisualStudio.load_eq h hname hend settings hother
  | codeBlocks => exact CodeBlocks.load_eq h hother

end SourceFormat

end BuildAtlas
