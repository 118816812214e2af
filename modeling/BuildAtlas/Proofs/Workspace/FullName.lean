import BuildAtlas.Proofs.Workspace.Sum

/-!
# BuildAtlas.Proofs.Workspace.FullName

Full names, and when they tell the projects of a workspace apart.

A full name is the name of a document and the identifier of a target in it. `FullNamesTell` is what
full names are there for: each leads to its project, whether it is looked up, shown or changed, and
no two tasks have one label. They do that if no two projects have one full name
(`fullNamesTell_iff_nodup`), and whether any have is a matter of the documents, since a scan takes
every target as it stands. A build description has each label once. A Code::Blocks project may give
one title to two targets, and a solution may list a project twice. Two solutions may also have one
name, in the root and among the build files, and share a project.
-/

namespace BuildAtlas

variable {settings : ImportSettings} {tree : FileTree} {root path text : String}

/-! ### Full names of documents -/

/-- The labels of the targets that are projects. -/
def Gn.Description.projectLabels (description : Gn.Description) : List String :=
  (description.targets.toList.filter fun (_, target) =>
    target.isProject (Gn.shownFiles description.rootPath target)).map (·.1)

/-- The titles of the targets that are projects. -/
def CodeBlocks.projectTitles (targets : List (CodeBlocks.Target × List String)) : List String :=
  (targets.filter fun (target, files) => (target.projectKind? files).isSome).map (·.1.title)

/-- What tells the projects of a document from one another. -/
def SourceFormat.identifiers (format : SourceFormat) (tree : FileTree) (path : String) :
    List String :=
  match tree.readText path with
  | .error _ => []
  | .ok text =>
    match format with
    | .gn => ((Gn.Description.codec.decode text).toOption.map (·.projectLabels)).getD []
    | .visualStudio => (VisualStudio.documents tree (.parse path text)).map (·.project.path)
    | .codeBlocks => ((CodeBlocks.parse path text).toOption.map CodeBlocks.projectTitles).getD []

namespace Imported

/-- The full name that a project of a document gets. -/
def fullName (path identifier : String) : String :=
  container path ++ ":" ++ identifier

theorem fullName_injective (path : String) : Function.Injective (fullName path) :=
  fun _ _ h => (String.append_right_inj _).1 h

theorem breakOn?_fullName (h : ':' ∉ (container path).toList) (identifier : String) :
    Text.breakOn? [':'] (fullName path identifier).toList
      = some ((container path).toList, identifier.toList) := by
  rw [Text.breakOn?_singleton_eq_some_iff]
  exact ⟨by simp [fullName], h⟩

/-- Without a colon in the names of documents, a full name tells what it is put together from. -/
theorem fullName_eq_iff {path' i j : String} (hpath : ':' ∉ (container path).toList)
    (hpath' : ':' ∉ (container path').toList) :
    fullName path i = fullName path' j ↔ container path = container path' ∧ i = j := by
  constructor
  · intro h
    have hcut := breakOn?_fullName hpath i
    rw [h, breakOn?_fullName hpath' j, Option.some.injEq, Prod.mk.injEq] at hcut
    exact ⟨String.toList_inj.1 hcut.1.symm, String.toList_inj.1 hcut.2.symm⟩
  · rintro ⟨hcontainer, rfl⟩
    rw [fullName, fullName, hcontainer]

end Imported

theorem map_filterMap_eq_map_filter {α β γ : Type} {f : α → Option β} {g : β → γ} {p : α → Bool}
    {k : α → γ} (h : ∀ a, (f a).map g = if p a then some (k a) else none) (as : List α) :
    (as.filterMap f).map g = (as.filter p).map k := by
  rw [List.map_filterMap, ← List.filterMap_eq_map, List.filterMap_filter]
  exact List.filterMap_congr fun a _ => h a

namespace Gn

theorem Description.nodup_projectLabels (description : Description) :
    description.projectLabels.Nodup :=
  (SortedMap.nodup_of_pairwise_lt description.targets.pairwise_keys).sublist
    (List.filter_sublist.map _)

theorem map_fullName_projects (description : Description) :
    (description.targets.toList.filterMap fun (label, target) =>
      toProject? settings tree (Imported.container path) description label target).map (·.fullName)
      = description.projectLabels.map (Imported.fullName path) := by
  rw [Description.projectLabels, List.map_map]
  refine map_filterMap_eq_map_filter (fun ⟨label, target⟩ => ?_) _
  simp only [toProject?]
  by_cases h : target.isProject (shownFiles description.rootPath target) = true
  · simp [h, Imported.fullName]
  · simp [h]

end Gn

theorem CodeBlocks.map_fullName_projects (targets : List (Target × List String))
    (directory : String) :
    (targets.filterMap fun (target, files) =>
      target.toProject? (Imported.container path) directory files).map (·.fullName)
      = (projectTitles targets).map (Imported.fullName path) := by
  rw [projectTitles, List.map_map]
  refine map_filterMap_eq_map_filter (fun ⟨target, files⟩ => ?_) _
  cases h : target.projectKind? files with
  | none => simp [Target.toProject?, h]
  | some kind => simp [Target.toProject?, h, Imported.fullName]

namespace VisualStudio

theorem map_fullName_projects (solution : Solution) (documents : List ProjectDocument) :
    (imported settings solution documents).projects.map (·.fullName)
      = (documents.map (·.project.path)).map (Imported.fullName solution.path) := by
  rw [imported, List.map_map, List.map_map]
  exact List.map_congr_left fun document _ => Project.ofTarget_fullName ..

end VisualStudio

/-! ### What full names are for -/

namespace Workspace

/-- The full names lead to the projects that have them. -/
structure FullNamesTell (workspace : Workspace) : Prop where
  nodup : (workspace.projects.map (·.fullName)).Nodup
  project?_eq : ∀ p ∈ workspace.projects, workspace.project? p.fullName = some p
  properties_eq : ∀ p ∈ workspace.projects,
    workspace.properties p.fullName = .ok (p.properties workspace.active)
  /-- What is changed under the full name of a project is that project. -/
  edit_eq : ∀ (position : Nat) (p : Project) (change : FileEdit),
    workspace.projects[position]? = some p →
      workspace.step (.edit p.fullName change) = workspace.step (.editAt position change)
  labels_nodup : (workspace.tasks.tasks.map (·.label)).Nodup

theorem find?_fullName_of_nodup {projects : List Project} {p : Project}
    (hnodup : (projects.map (·.fullName)).Nodup) (hp : p ∈ projects) :
    projects.find? (·.fullName == p.fullName) = some p := by
  induction projects with
  | nil => exact absurd hp List.not_mem_nil
  | cons q rest ih =>
      rw [List.map_cons, List.nodup_cons] at hnodup
      rcases List.mem_cons.1 hp with rfl | hp
      · rw [List.find?_cons_of_pos (by simp)]
      · have hne : q.fullName ≠ p.fullName := fun h =>
          hnodup.1 (List.mem_map.2 ⟨p, hp, h.symm⟩)
        rw [List.find?_cons_of_neg (by simpa using hne)]
        exact ih hnodup.2 hp

/-- Where full names differ, the first project with a full name is the only one. -/
theorem setIn_eq_modify {f : Project → Project} (hf : ∀ p, (f p).fullName = p.fullName)
    {projects : List Project} (hnodup : (projects.map (·.fullName)).Nodup) {position : Nat}
    {p : Project} (hp : projects[position]? = some p) :
    setIn (f p) projects = projects.modify position f := by
  induction projects generalizing position with
  | nil => simp at hp
  | cons q rest ih =>
      rw [List.map_cons, List.nodup_cons] at hnodup
      cases position with
      | zero =>
          obtain rfl : q = p := by simpa using hp
          rw [setIn, if_pos (by simp [hf]), List.modify_zero_cons]
      | succ position =>
          rw [List.getElem?_cons_succ] at hp
          have hne : q.fullName ≠ p.fullName := fun h =>
            hnodup.1 (List.mem_map.2 ⟨p, List.mem_of_getElem? hp, h.symm⟩)
          rw [setIn, if_neg (by simpa [hf] using hne), List.modify_succ_cons, ih hnodup.2 hp]

theorem map_label_tasks (workspace : Workspace) :
    workspace.tasks.tasks.map (·.label) = (workspace.projects.map (·.fullName)).flatMap
      fun fullName => ["build " ++ fullName, "clean " ++ fullName] := by
  rw [tasks, List.map_flatMap, List.flatMap_map]
  rfl

theorem nodup_labels {fullNames : List String} (h : fullNames.Nodup) :
    (fullNames.flatMap fun fullName => ["build " ++ fullName, "clean " ++ fullName]).Nodup := by
  have hkind (m n : String) : "build " ++ m ≠ "clean " ++ n := by
    intro heq
    simpa using congrArg (fun label => label.toList.head?) heq
  rw [List.nodup_flatMap]
  refine ⟨fun n _ => by simp [hkind], h.imp fun {m n} hne => ?_⟩
  simp [Function.onFun, hne.symm, hkind, (hkind _ _).symm]

/-- Full names do what they are for if no two projects have one. -/
theorem fullNamesTell_iff_nodup {workspace : Workspace} :
    workspace.FullNamesTell ↔ (workspace.projects.map (·.fullName)).Nodup := by
  refine ⟨FullNamesTell.nodup, fun hnodup => ?_⟩
  have hfind {p : Project} (hp : p ∈ workspace.projects) :
      workspace.project? p.fullName = some p := find?_fullName_of_nodup hnodup hp
  exact {
    nodup := hnodup
    project?_eq := fun p hp => hfind hp
    properties_eq := fun p hp => by rw [properties, hfind hp]
    edit_eq := fun position p change hp => by
      simp only [step, hfind (List.mem_of_getElem? hp), setProject]
      rw [setIn_eq_modify (f := (·.edit change)) (fun q => q.edit_fullName change) hnodup hp]
    labels_nodup := by
      rw [map_label_tasks]
      exact nodup_labels hnodup }

/-! ### Full names of a scan -/

theorem contribution_of_readText_error {fault : FileTree.Fault}
    (h : tree.readText path = .error fault) (settings : ImportSettings) (format : SourceFormat) :
    contribution settings tree format path = {} := by
  have hload : format.load settings tree path = .ok {} ∨
      format.load settings tree path = .error (.file fault) := by
    cases format with
    | gn => exact Imported.ofDocument_of_readText_error h _
    | visualStudio => exact Imported.ofDocument_of_readText_error h _
    | codeBlocks => exact Imported.ofDocument_of_readText_error h _
  rw [contribution]
  rcases hload with hload | hload <;> rw [hload]

theorem map_fullName_contribution (settings : ImportSettings) (tree : FileTree)
    (format : SourceFormat) (path : String) :
    (contribution settings tree format path).projects.map (·.fullName)
      = (format.identifiers tree path).map (Imported.fullName path) := by
  cases htext : tree.readText path with
  | error fault =>
      rw [contribution_of_readText_error htext, SourceFormat.identifiers, htext]
      rfl
  | ok text =>
      cases format with
      | gn =>
          simp only [contribution, SourceFormat.load, SourceFormat.identifiers, htext, Gn.load,
            Imported.ofDocument_of_readText htext]
          cases Gn.Description.codec.decode text with
          | error fault => rfl
          | ok description => exact Gn.map_fullName_projects description
      | visualStudio =>
          simp only [contribution, SourceFormat.load, SourceFormat.identifiers, htext,
            VisualStudio.load, Imported.ofDocument_of_readText htext,
            VisualStudio.map_fullName_projects, VisualStudio.Solution.path_parse]
      | codeBlocks =>
          simp only [contribution, SourceFormat.load, SourceFormat.identifiers, htext,
            CodeBlocks.load, Imported.ofDocument_of_readText htext]
          cases CodeBlocks.parse path text with
          | error e => rfl
          | ok targets => exact CodeBlocks.map_fullName_projects targets _

/-- No two projects of a sum have one full name if none of one document have, and none of two. -/
theorem IsSum.fullNamesTell_iff {format : SourceFormat} {documents : List String}
    {workspace : Workspace} (h : IsSum settings tree root format documents workspace) :
    workspace.FullNamesTell ↔
      (∀ path ∈ documents, (format.identifiers tree path).Nodup) ∧
      documents.Pairwise fun path path' =>
        ∀ i ∈ format.identifiers tree path, ∀ j ∈ format.identifiers tree path',
          Imported.fullName path i ≠ Imported.fullName path' j := by
  rw [fullNamesTell_iff_nodup, h.projects_eq, List.map_flatMap]
  simp only [map_fullName_contribution, List.nodup_flatMap]
  refine and_congr (forall₂_congr fun path _ => ?_) (List.Pairwise.iff fun path path' => ?_)
  · exact List.nodup_map_iff (Imported.fullName_injective path)
  · simp only [Function.onFun, List.disjoint_iff_ne, List.forall_mem_map]

end Workspace

namespace SourceFormat

/-- The projects that a format finds below a root have identifiers of their own, as far as the
format has to look after that. -/
def TargetsApart (format : SourceFormat) (tree : FileTree) (root : String) : Prop :=
  let documents := format.discover tree root
  let identifiers := format.identifiers tree
  match format with
  | gn => True
  | visualStudio =>
    (∀ path ∈ documents, (identifiers path).Nodup) ∧
    documents.Pairwise fun path path' => Imported.container path = Imported.container path' →
      (identifiers path).Disjoint (identifiers path')
  | codeBlocks => ∀ path ∈ documents, (identifiers path).Nodup

theorem nodup_identifiers_gn (tree : FileTree) (path : String) :
    (gn.identifiers tree path).Nodup := by
  rw [identifiers]
  cases tree.readText path with
  | error fault => exact List.nodup_nil
  | ok text =>
      dsimp only
      cases Gn.Description.codec.decode text with
      | error fault => exact List.nodup_nil
      | ok description => exact description.nodup_projectLabels

/-- Where documents have no colon in their names, full names differ exactly if identifiers do. -/
theorem targetsApart_iff (hnames : tree.WellNamed) {format : SourceFormat}
    (hcolon : format = gn ∨
      ∀ path ∈ format.discover tree root, ':' ∉ (Imported.container path).toList) :
    format.TargetsApart tree root ↔
      (∀ path ∈ format.discover tree root, (format.identifiers tree path).Nodup) ∧
      (format.discover tree root).Pairwise fun path path' =>
        ∀ i ∈ format.identifiers tree path, ∀ j ∈ format.identifiers tree path',
          Imported.fullName path i ≠ Imported.fullName path' j := by
  have hdiscovers := discovers_discover hnames format root
  cases format with
  | gn =>
      rw [hdiscovers]
      refine iff_of_true trivial ⟨fun path _ => nodup_identifiers_gn tree path, ?_⟩
      split <;> simp
  | visualStudio =>
      have hcolon := hcolon.resolve_left nofun
      refine and_congr_right fun _ => List.Pairwise.iff_of_mem fun {path path'} hpath hpath' => ?_
      simp only [ne_eq, Imported.fullName_eq_iff (hcolon path hpath) (hcolon path' hpath')]
      grind [List.disjoint_left]
  | codeBlocks =>
      have hcolon := hcolon.resolve_left nofun
      refine ⟨fun h => ⟨h, ?_⟩, And.left⟩
      have hnodup := nodup_discover hnames codeBlocks root
      refine hnodup.imp_of_mem fun {path path'} hpath hpath' hne i _ j _ heq => ?_
      -- the documents lie in one directory, so that their names differ
      obtain ⟨hcontainer, -⟩ :=
        (Imported.fullName_eq_iff (hcolon path hpath) (hcolon path' hpath')).1 heq
      apply hne
      rw [← FileTree.ListedIn.join_container hnames hdiscovers hpath, hcontainer,
        FileTree.ListedIn.join_container hnames hdiscovers hpath']

end SourceFormat

namespace Workspace

/-- Full names do what they are for exactly if no two projects of the documents get the same. Where
documents have no colon in their names, that is so for every build description, for Code::Blocks
projects that give each title once, and for solutions that list each project once and share none
with a solution of the same name. -/
theorem fullNamesTell_iff_targetsApart {now : Time} {workspace : Workspace}
    (hnames : tree.WellNamed) (hscan : scan settings tree root now = .ok workspace) :
    (workspace.format = none → workspace.FullNamesTell) ∧
    ∀ format, workspace.format = some format →
      let documents := format.discover tree root
      let identifiers := format.identifiers tree
      (workspace.FullNamesTell ↔
        (∀ path ∈ documents, (identifiers path).Nodup) ∧
        documents.Pairwise fun path path' => ∀ i ∈ identifiers path, ∀ j ∈ identifiers path',
          Imported.fullName path i ≠ Imported.fullName path' j) ∧
      ((format = .gn ∨ ∀ path ∈ documents, ':' ∉ (Imported.container path).toList) →
        (workspace.FullNamesTell ↔ format.TargetsApart tree root)) := by
  rcases scan_cases hscan with rfl | ⟨format, hsum⟩
  · exact ⟨fun _ => fullNamesTell_iff_nodup.2 List.nodup_nil, nofun⟩
  · refine ⟨fun hnone => absurd (hnone.symm.trans hsum.format_eq) nofun, fun format' hformat => ?_⟩
    obtain rfl := Option.some.inj (hsum.format_eq.symm.trans hformat)
    exact ⟨hsum.fullNamesTell_iff, fun hcolon =>
      hsum.fullNamesTell_iff.trans (SourceFormat.targetsApart_iff hnames hcolon).symm⟩

/-- A tree with two solutions of one name. The one in the root lists `app`, the other one lists the
project at a path as `tool`. -/
def twinSolutions (listed : String) : FileTree where
  directories := [["BuildFiles"]]
  files := [
    (["app.vcxproj"], "<Project/>".toUTF8),
    (["lib.vcxproj"], "<Project/>".toUTF8),
    (["a.sln"], "Project() = app, app.vcxproj, A".toUTF8),
    (["BuildFiles", "a.sln"], ("Project() = tool, " ++ listed ++ ", A").toUTF8)]

/-- Two solutions of one name may list different projects. -/
theorem fullNamesTell_twinSolutions :
    ∃ workspace, scan {} (twinSolutions "../lib.vcxproj") "." ⟨1⟩ = .ok workspace ∧
      workspace.format = some .visualStudio ∧ workspace.FullNamesTell := by
  have hfirst : SourceFormat.first? SourceFormat.all (twinSolutions "../lib.vcxproj") "."
      = some .visualStudio := by
    decide +kernel
  have hdocuments : SourceFormat.visualStudio.discover (twinSolutions "../lib.vcxproj") "."
      = ["./a.sln", "./BuildFiles/a.sln"] := by
    decide +kernel
  have happ : SourceFormat.visualStudio.identifiers (twinSolutions "../lib.vcxproj") "./a.sln"
      = ["app.vcxproj"] := by
    decide +kernel
  have hlib : SourceFormat.visualStudio.identifiers (twinSolutions "../lib.vcxproj")
      "./BuildFiles/a.sln" = ["lib.vcxproj"] := by
    decide +kernel
  obtain ⟨workspace, hscan, hsum⟩ :
      ∃ workspace, scan {} (twinSolutions "../lib.vcxproj") "." ⟨1⟩ = .ok workspace ∧ _ :=
    exists_scan_eq_sum _ (by decide) hfirst
  have hiff := (fullNamesTell_iff_targetsApart (by decide) hscan).2 .visualStudio hsum.format_eq
  refine ⟨workspace, hscan, hsum.format_eq, (hiff.2 (.inr ?_)).2 ?_⟩
  · rw [hdocuments]
    decide +kernel
  · simp [SourceFormat.TargetsApart, hdocuments, happ, hlib]

/-- But when they list the same one, its full name leads to the first of two projects only, and the
tasks of both have the same labels. -/
theorem not_nodup_twinSolutions :
    ∃ workspace, scan {} (twinSolutions "../app.vcxproj") "." ⟨1⟩ = .ok workspace ∧
      ¬ (workspace.projects.map (·.fullName)).Nodup ∧
      (∃ p ∈ workspace.projects, workspace.project? p.fullName ≠ some p) ∧
      ¬ (workspace.tasks.tasks.map (·.label)).Nodup := by
  have hcheck : (scan {} (twinSolutions "../app.vcxproj") "." ⟨1⟩).toOption.any (fun workspace =>
      workspace.projects.map (fun p => (p.name, p.fullName))
        == [("app", "a.sln:app.vcxproj"), ("tool", "a.sln:app.vcxproj")]) = true := by
    decide +kernel
  obtain ⟨workspace, hscan, hnames⟩ := exists_scan_of_any hcheck
  simp only [beq_iff_eq, List.map_eq_cons_iff, List.map_eq_nil_iff, Prod.mk.injEq] at hnames
  obtain ⟨p, rest, hprojects, ⟨hpname, hp⟩, q, _, rfl, ⟨hqname, hq⟩, rfl⟩ := hnames
  have hne : p ≠ q := by
    rintro rfl
    simp [hpname] at hqname
  refine ⟨workspace, hscan, ?_, ⟨q, ?_, ?_⟩, ?_⟩
  · simp [hprojects, hp, hq]
  · simp [hprojects]
  · simp [project?, hprojects, hp, hq, hne]
  · simp [map_label_tasks, hprojects, hp, hq]

end Workspace

end BuildAtlas
