import BuildAtlas.Proofs.CodeBlocks.Units
import BuildAtlas.Proofs.Gn.Import
import BuildAtlas.Proofs.VisualStudio.Members

/-!
# BuildAtlas.Proofs.ListedFiles

Documents that list a file twice.

A format takes the files of a project from one list of places: the entries of a target, the items of
a project document, the options of files' elements. Each place gives one file or none, and no format
looks whether a file has been given before. So a project has a file twice just when two places give
it (`nodup_filterMap_iff`), and `ListsTwice` says of a document that this happens in it.
-/

namespace BuildAtlas

open Xml (Element)

/-! ### Things that give one value -/

section GivenTwice

variable {α β : Type} {gives : α → β → Prop} {items : List α} {value? : α → Option β}

/-- Two things of a list give one value. -/
def GivenTwice (gives : α → β → Prop) (items : List α) : Prop :=
  ∃ before one between other after value,
    items = before ++ one :: (between ++ other :: after) ∧ gives one value ∧ gives other value

theorem givenTwice_cons_iff {item : α} : GivenTwice gives (item :: items) ↔
    (∃ value, gives item value ∧ ∃ other ∈ items, gives other value) ∨
      GivenTwice gives items := by
  constructor
  · rintro ⟨before, one, between, other, after, value, hitems, hone, hother⟩
    cases before with
    | nil =>
        obtain ⟨rfl, rfl⟩ := List.cons.inj hitems
        exact .inl ⟨value, hone, other, by simp, hother⟩
    | cons first before =>
        obtain ⟨rfl, rfl⟩ := List.cons.inj hitems
        exact .inr ⟨before, one, between, other, after, value, rfl, hone, hother⟩
  · rintro (⟨value, hitem, other, hmem, hother⟩ | h)
    · obtain ⟨between, after, rfl⟩ := List.append_of_mem hmem
      exact ⟨[], item, between, other, after, value, rfl, hitem, hother⟩
    · obtain ⟨before, one, between, other, after, value, rfl, hone, hother⟩ := h
      exact ⟨item :: before, one, between, other, after, value, rfl, hone, hother⟩

/-- A value is repeated just when two things give it. -/
theorem nodup_filterMap_iff (h : ∀ item value, value? item = some value ↔ gives item value) :
    (items.filterMap value?).Nodup ↔ ¬ GivenTwice gives items := by
  induction items with
  | nil => exact iff_of_true List.nodup_nil (by simp [GivenTwice])
  | cons item items ih =>
      rw [givenTwice_cons_iff, not_or, ← ih]
      cases hitem : value? item with
      | none =>
          rw [List.filterMap_cons_none hitem, iff_and_self]
          rintro - ⟨value, hvalue, -⟩
          exact nomatch hitem.symm.trans ((h item value).2 hvalue)
      | some found =>
          have honly : ∀ value, gives item value → value = found := fun value hvalue =>
            Option.some.inj (((h item value).2 hvalue).symm.trans hitem)
          rw [List.filterMap_cons_some hitem, List.nodup_cons, List.mem_filterMap]
          refine and_congr_left' (not_congr ⟨?_, ?_⟩)
          · rintro ⟨other, hmem, hother⟩
            exact ⟨found, (h _ _).1 hitem, other, hmem, (h _ _).1 hother⟩
          · rintro ⟨value, hvalue, other, hmem, hother⟩
            obtain rfl := honly value hvalue
            exact ⟨other, hmem, (h _ _).2 hother⟩

end GivenTwice

variable {tree : FileTree} {path : String} {found : Imported}

/-! ### Build descriptions -/

namespace Gn

/-- An entry of a target gives a file: it is shown, and it stands for the file. -/
structure Gives (rootPath : Option String) (entry file : String) : Prop where
  isShown : IsShown entry
  resolves : Resolves rootPath entry file

/-- The file that an entry gives. -/
def file? (rootPath : Option String) (entry : String) : Option String :=
  if IsShown entry then some (resolve rootPath entry) else none

theorem file?_eq_some_iff {rootPath : Option String} {entry file : String} :
    file? rootPath entry = some file ↔ Gives rootPath entry file := by
  rw [file?, Option.ite_none_right_eq_some, Option.some.injEq, eq_comm, ← resolves_iff]
  exact ⟨fun h => ⟨h.1, h.2⟩, fun h => ⟨h.1, h.2⟩⟩

theorem shownFiles_eq_filterMap (rootPath : Option String) (target : Target) :
    shownFiles rootPath target = (target.sources ++ target.inputs).filterMap (file? rootPath) := by
  rw [shownFiles_eq, Target.shownEntries]
  induction target.sources ++ target.inputs with
  | nil => rfl
  | cons entry entries ih =>
      by_cases hshown : IsShown entry
      · have hfile : file? rootPath entry = some (resolve rootPath entry) := if_pos hshown
        rw [List.filter_cons_of_pos (by simpa using hshown), List.map_cons, ih,
          List.filterMap_cons_some hfile]
      · have hfile : file? rootPath entry = none := if_neg hshown
        rw [List.filter_cons_of_neg (by simpa using hshown), ih, List.filterMap_cons_none hfile]

/-- The projects of a description have the files of its valid targets. -/
theorem exists_files_iff_of_load {settings : ImportSettings}
    (hload : load settings tree path = .ok found) {p : List String → Prop} :
    (∃ project ∈ found.projects, p project.files) ↔ ∃ text description label target,
      tree.readText path = .ok text ∧ Description.codec.decode text = .ok description ∧
        (label, target) ∈ description.targets.toList ∧ target.IsValid ∧
          p (shownFiles description.rootPath target) := by
  constructor
  · rintro ⟨project, hproject, hfiles⟩
    rcases Imported.ofDocument_cases hload with rfl | ⟨text, htext, hread⟩
    · exact absurd hproject List.not_mem_nil
    · cases hdescription : Description.codec.decode text with
      | error fault => simp [hdescription] at hread
      | ok description =>
          simp only [hdescription, Except.ok.injEq] at hread
          obtain rfl := hread
          obtain ⟨⟨label, target⟩, htarget, hmade⟩ := List.mem_filterMap.1 hproject
          simp only [toProject?, Option.ite_none_right_eq_some, Option.some.injEq] at hmade
          obtain ⟨hvalid, rfl⟩ := hmade
          rw [Project.ofTarget_files] at hfiles
          exact ⟨text, description, label, target, htext, hdescription, htarget,
            Target.isProject_iff.1 hvalid, hfiles⟩
  · rintro ⟨text, description, label, target, htext, hdescription, htarget, hvalid, hfiles⟩
    rw [load, Imported.ofDocument_of_readText htext, hdescription] at hload
    obtain rfl := Except.ok.inj hload
    obtain ⟨project, hmade⟩ : ∃ project, toProject? settings tree (Imported.container path)
        description label target = some project ∧
          project.files = shownFiles description.rootPath target := by
      rw [toProject?]
      rw [if_pos (Target.isProject_iff.2 hvalid)]
      exact ⟨_, rfl, Project.ofTarget_files ..⟩
    exact ⟨project, List.mem_filterMap.2 ⟨(label, target), htarget, hmade.1⟩, hmade.2 ▸ hfiles⟩

end Gn

/-! ### Project documents -/

namespace VisualStudio

/-- The items of a document, each with its group, in the order of the document. -/
def groupItems (root : Element) : List (Element × Element) :=
  (root.elementsNamed "ItemGroup").flatMap fun group => group.elements.map fun item => (group, item)

/-- An item in a group gives a file: it stands for a file and names it, and a project shows it. -/
structure Gives (directory : String) (place : Element × Element) (file : String) : Prop where
  /-- Configurations are items too. -/
  label_ne : place.1.attribute? "Label" ≠ some "ProjectConfigurations"
  kind_mem : place.2.name ∈ ["ClCompile", "ClInclude", "CustomBuild", "None"]
  resolves : ∃ name, place.2.attribute? "Include" = some name ∧
    Path.resolve directory (Path.withSlashes name) = file
  isShown : ∃ name extension, Path.fileName? file = some name ∧
    Path.HasExtension name extension ∧ extension ∈ shownExtensions

theorem isSome_ofElement?_iff {name : String} : (∃ kind, ItemKind.ofElement? name = some kind) ↔
    name ∈ ["ClCompile", "ClInclude", "CustomBuild", "None"] := by
  rw [ItemKind.ofElement?.eq_def]
  split
  all_goals simp_all

/-- The file that an item in a group gives. -/
def file? (directory : String) (place : Element × Element) : Option String :=
  if ProjectDocument.listsConfigurations place.1 then none
  else
    (((ItemKind.ofElement? place.2.name).bind fun _ => place.2.attribute? "Include").map fun name =>
      Path.resolve directory (Path.withSlashes name)).filter
        (Imported.hasListedExtension shownExtensions)

theorem file?_eq_some_iff {directory : String} {place : Element × Element} {file : String} :
    file? directory place = some file ↔ Gives directory place file := by
  have hlabel : ProjectDocument.listsConfigurations place.1 = true ↔
      place.1.attribute? "Label" = some "ProjectConfigurations" := beq_iff_eq
  simp only [file?, Option.ite_none_left_eq_some, Option.filter_eq_some_iff, Option.map_eq_some_iff,
    Option.bind_eq_some_iff, Imported.hasListedExtension_iff, hlabel]
  constructor
  · rintro ⟨hlabel, ⟨name, ⟨kind, hkind, hname⟩, rfl⟩, hshown⟩
    exact ⟨hlabel, isSome_ofElement?_iff.1 ⟨kind, hkind⟩, ⟨name, hname, rfl⟩, hshown⟩
  · rintro ⟨hlabel, hkind, ⟨name, hname, rfl⟩, hshown⟩
    obtain ⟨kind, hkind⟩ := isSome_ofElement?_iff.2 hkind
    exact ⟨hlabel, ⟨name, ⟨kind, hkind, hname⟩, rfl⟩, hshown⟩

theorem filter_itemsOf (directory : String) (group : Element) :
    ((ProjectDocument.itemsOf directory group).map Item.path).filter
        (Imported.hasListedExtension shownExtensions) =
      (group.elements.map fun item => (group, item)).filterMap (file? directory) := by
  rw [ProjectDocument.itemsOf, List.filterMap_map]
  by_cases hlabel : ProjectDocument.listsConfigurations group = true
  · have hnone : ∀ item ∈ group.elements,
        (file? directory ∘ fun item => (group, item)) item = none := fun _ _ => if_pos hlabel
    rw [if_pos hlabel, List.filterMap_eq_nil_iff.2 hnone]
    rfl
  · rw [if_neg hlabel, List.map_filterMap, List.filter_filterMap]
    refine List.filterMap_congr fun item _ => ?_
    rw [Function.comp_apply, file?, if_neg hlabel]
    cases ItemKind.ofElement? item.name with
    | none => rfl
    | some kind =>
        cases item.attribute? "Include" with
        | none => rfl
        | some name => rfl

/-- A project has the files that the items of its document give. -/
theorem files_model (settings : ImportSettings) (solution : Solution) (project : SolutionProject)
    (root : Element) : (model settings solution project root).files =
      (groupItems root).filterMap (file? (Path.directory project.path)) := by
  rw [model, toProject, Project.ofTarget_files, groupItems, List.filterMap_flatMap]
  simp only [← filter_itemsOf, ← List.filter_flatMap, ← List.map_flatMap]
  rfl

theorem mem_modelsOf_iff {settings : ImportSettings} {solution : Solution}
    {entries : List SolutionProject} {made : Project} :
    made ∈ modelsOf settings solution tree entries ↔ ∃ project root,
      project ∈ entries ∧ HasRoot tree project.path root ∧
        model settings solution project root = made := by
  simp only [modelsOf, List.mem_filterMap, Option.map_eq_some_iff, rootAt?_eq_some_iff]
  constructor
  · rintro ⟨project, hproject, root, hroot, hmade⟩
    exact ⟨project, root, hproject, hroot, hmade⟩
  · rintro ⟨project, root, hproject, hroot, hmade⟩
    exact ⟨project, hproject, root, hroot, hmade⟩

/-- The projects of a solution have the files of the usable documents. -/
theorem exists_files_iff_of_load {settings : ImportSettings}
    (hload : load settings tree path = .ok found) {p : List String → Prop} :
    (∃ project ∈ found.projects, p project.files) ↔ ∃ text project root,
      tree.readText path = .ok text ∧ project ∈ (Solution.parse path text).projects ∧
        HasRoot tree project.path root ∧
          p ((groupItems root).filterMap (file? (Path.directory project.path))) := by
  constructor
  · rintro ⟨made, hmade, hfiles⟩
    rcases Imported.ofDocument_cases hload with rfl | ⟨text, htext, -⟩
    · exact absurd hmade List.not_mem_nil
    · rw [load_of_readText settings htext, Except.ok.injEq] at hload
      subst hload
      generalize hsolution : Solution.parse path text = solution at hmade
      obtain ⟨project, root, hproject, hroot, rfl⟩ := mem_modelsOf_iff.1 hmade
      rw [files_model] at hfiles
      rw [← hsolution] at hproject
      exact ⟨text, project, root, htext, hproject, hroot, hfiles⟩
  · rintro ⟨text, project, root, htext, hproject, hroot, hfiles⟩
    rw [load_of_readText settings htext, Except.ok.injEq] at hload
    subst hload
    generalize Solution.parse path text = solution at hproject ⊢
    exact ⟨model settings solution project root,
      mem_modelsOf_iff.2 ⟨project, root, hproject, hroot, rfl⟩, by rwa [files_model]⟩

end VisualStudio

/-! ### Project files -/

namespace CodeBlocks

/-- An option of a file's element gives a target the file: it names the target. -/
structure Gives (directory title : String) (place : Element × Element) (file : String) : Prop where
  names : place.2.attribute? "target" = some title
  resolves : ∃ name, place.1.attribute? "filename" = some name ∧
    Path.resolve directory name = file

theorem fileFor?_eq_some_iff {directory title : String} {place : Element × Element}
    {file : String} : fileFor? directory title place = some file ↔
      Gives directory title place file := by
  rw [fileFor?, Option.ite_none_right_eq_some, Option.map_eq_some_iff]
  exact ⟨fun h => ⟨h.1, h.2⟩, fun h => ⟨h.1, h.2⟩⟩

/-- A target gets the files of its title, or none. -/
theorem of_mem_withFiles {belonging : List (String × String)} {before : List String}
    {targets : List Target} {entry : Target × List String}
    (h : entry ∈ withFiles belonging before targets) : entry.1 ∈ targets ∧
      (entry.2 = [] ∨ entry.2 = (belonging.filter (·.1 == entry.1.title)).map Prod.snd) := by
  induction targets generalizing before with
  | nil => exact absurd h List.not_mem_nil
  | cons target targets ih =>
      rw [withFiles] at h
      rcases List.mem_cons.1 h with rfl | h
      · refine ⟨List.mem_cons_self, ?_⟩
        by_cases hbefore : target.title ∈ before
        · exact .inl (if_pos hbefore)
        · exact .inr (if_neg hbefore)
      · obtain ⟨hmem, hfiles⟩ := ih h
        exact ⟨List.mem_cons_of_mem _ hmem, hfiles⟩

/-- The first target with a title gets the files of the title. -/
theorem exists_mem_withFiles {belonging : List (String × String)} {before : List String}
    {targets : List Target} {title : String} (htitle : title ∈ targets.map Target.title)
    (hbefore : title ∉ before) : ∃ entry ∈ withFiles belonging before targets,
      entry.2 = (belonging.filter (·.1 == title)).map Prod.snd := by
  induction targets generalizing before with
  | nil => exact absurd htitle List.not_mem_nil
  | cons target targets ih =>
      rw [withFiles]
      by_cases hfirst : target.title = title
      · subst hfirst
        exact ⟨_, List.mem_cons_self, if_neg hbefore⟩
      · have hrest : title ∈ targets.map Target.title :=
          (List.mem_cons.1 htitle).resolve_left fun h => hfirst h.symm
        have hfresh : title ∉ target.title :: before := by
          rw [List.mem_cons, not_or]
          exact ⟨fun h => hfirst h.symm, hbefore⟩
        obtain ⟨entry, hentry, hfiles⟩ := ih hrest hfresh
        exact ⟨entry, List.mem_cons_of_mem _ hentry, hfiles⟩

/-- Nothing belongs to the empty title. -/
theorem belongings_of_empty (directory : String) (project : Element) :
    ((project.elementsNamed "Unit").flatMap (belongings directory)).filter (·.1 == "") = [] := by
  rw [List.filter_eq_nil_iff]
  intro pair hpair
  obtain ⟨unit, -, hpair⟩ := List.mem_flatMap.1 hpair
  rw [belongings] at hpair
  split at hpair
  · exact absurd hpair List.not_mem_nil
  · obtain ⟨title, htitle, rfl⟩ := List.mem_map.1 hpair
    simpa using (List.mem_filter.1 htitle).2

theorem files_of_project? {entry : Target × List String} {project : Project}
    (h : project? path entry = some project) : project.files = entry.2 := by
  simp only [project?, Target.toProject?, Option.bind_eq_bind, Option.bind_eq_some_iff,
    Option.pure_def, Option.some.injEq] at h
  obtain ⟨kind, -, rfl⟩ := h
  exact Project.ofTarget_files ..

/-- A target with files is a project. -/
theorem exists_project?_of_ne_nil {entry : Target × List String} (h : entry.2 ≠ []) :
    ∃ project, project? path entry = some project := by
  have hkind : ∃ kind, entry.1.projectKind? entry.2 = some kind := by
    rw [Target.projectKind?]
    split
    · exact ⟨_, rfl⟩
    · exact ⟨_, rfl⟩
    · exact ⟨_, rfl⟩
    · exact ⟨_, if_neg (by simpa using h)⟩
  obtain ⟨kind, hkind⟩ := hkind
  rw [project?, Target.toProject?, hkind]
  exact ⟨_, rfl⟩

/-- Apart from projects without files, the projects of a project file have the files of the titles
of targets. -/
theorem exists_files_iff_of_load (hload : load tree path = .ok found) {p : List String → Prop}
    (hnil : ¬ p []) : (∃ project ∈ found.projects, p project.files) ↔ ∃ text project title,
      tree.readText path = .ok text ∧ Describes text project ∧
        title ∈ (titledTargets project).map Prod.fst ∧ title ≠ "" ∧
          p (filesFor (Path.directory path) project title) := by
  have htitles (project : Element) : ((titledTargets project).map Target.ofTitled).map
      Target.title = (titledTargets project).map Prod.fst := by
    rw [List.map_map]
    rfl
  constructor
  · rintro ⟨made, hmade, hfiles⟩
    rcases Imported.ofDocument_cases hload with rfl | ⟨text, htext, hread⟩
    · exact absurd hmade List.not_mem_nil
    · cases helement : projectElement? path text with
      | error e => simp [parse, helement, bind, Except.bind] at hread
      | ok element =>
          cases element with
          | none =>
              simp [parse, helement, bind, Except.bind, pure, Except.pure] at hread
              simp [← hread] at hmade
          | some project =>
              have hdescribes := projectElement?_eq_iff.1 helement
              rw [hdescribes.load_eq htext, Except.ok.injEq] at hload
              subst hload
              obtain ⟨entry, hentry, hproject⟩ := List.mem_filterMap.1 hmade
              rw [targetsOf_eq_withFiles] at hentry
              rw [files_of_project? hproject] at hfiles
              obtain ⟨htarget, hnone | hall⟩ := of_mem_withFiles hentry
              · exact absurd (hnone ▸ hfiles) hnil
              · have htitle : entry.1.title ≠ "" := by
                  intro hempty
                  rw [hall, hempty, belongings_of_empty] at hfiles
                  exact hnil hfiles
                rw [hall, belongings_eq_filesFor htitle] at hfiles
                refine ⟨text, project, entry.1.title, htext, hdescribes, ?_, htitle, hfiles⟩
                exact htitles project ▸ List.mem_map_of_mem htarget
  · rintro ⟨text, project, title, htext, hdescribes, hmem, htitle, hfiles⟩
    rw [hdescribes.load_eq htext, Except.ok.injEq] at hload
    subst hload
    obtain ⟨entry, hentry, hall⟩ := @exists_mem_withFiles
      ((project.elementsNamed "Unit").flatMap (belongings (Path.directory path))) [] _ title
      (htitles project ▸ hmem) List.not_mem_nil
    rw [belongings_eq_filesFor htitle] at hall
    have hne : entry.2 ≠ [] := fun hempty => hnil (hempty ▸ hall ▸ hfiles)
    obtain ⟨made, hmade⟩ := @exists_project?_of_ne_nil path entry hne
    refine ⟨made, List.mem_filterMap.2 ⟨entry, ?_, hmade⟩, ?_⟩
    · rwa [targetsOf_eq_withFiles]
    · rwa [files_of_project? hmade, hall]

end CodeBlocks

/-! ### Documents -/

/-- A document lists a file twice for a project that it describes. -/
inductive ListsTwice (tree : FileTree) (path : String) : SourceFormat → Prop
  /-- Two entries of a target, be they sources or inputs, give the file. -/
  | gn {text label : String} {description : Gn.Description} {target : Gn.Target}
      (htext : tree.readText path = .ok text)
      (hdescription : Gn.Description.codec.decode text = .ok description)
      (htarget : (label, target) ∈ description.targets.toList) (hvalid : target.IsValid)
      (htwice : GivenTwice (Gn.Gives description.rootPath) (target.sources ++ target.inputs)) :
      ListsTwice tree path .gn
  /-- Two items of a project document give the file. -/
  | visualStudio {text : String} {project : VisualStudio.SolutionProject} {root : Element}
      (htext : tree.readText path = .ok text)
      (hproject : project ∈ (VisualStudio.Solution.parse path text).projects)
      (hroot : VisualStudio.HasRoot tree project.path root)
      (htwice : GivenTwice (VisualStudio.Gives (Path.directory project.path))
        (VisualStudio.groupItems root)) : ListsTwice tree path .visualStudio
  /-- Two options, of one file's element or of two, give a target the file. -/
  | codeBlocks {text title : String} {project : Element}
      (htext : tree.readText path = .ok text) (hproject : CodeBlocks.Describes text project)
      (hmem : title ∈ (CodeBlocks.titledTargets project).map Prod.fst) (htitle : title ≠ "")
      (htwice : GivenTwice (CodeBlocks.Gives (Path.directory path) title)
        (CodeBlocks.unitOptions project)) : ListsTwice tree path .codeBlocks

section Load

variable {settings : ImportSettings}

theorem listsTwice_gn_iff (hload : Gn.load settings tree path = .ok found) :
    ListsTwice tree path .gn ↔ ∃ project ∈ found.projects, ¬ project.files.Nodup := by
  have htwice (rootPath : Option String) (target : Gn.Target) :
      ¬ (Gn.shownFiles rootPath target).Nodup ↔
        GivenTwice (Gn.Gives rootPath) (target.sources ++ target.inputs) := by
    rw [Gn.shownFiles_eq_filterMap, nodup_filterMap_iff fun _ _ => Gn.file?_eq_some_iff, not_not]
  rw [@Gn.exists_files_iff_of_load _ _ _ _ hload fun files => ¬ files.Nodup]
  simp only [htwice]
  constructor
  · intro h
    cases h with
    | gn htext hdescription htarget hvalid hgiven =>
        exact ⟨_, _, _, _, htext, hdescription, htarget, hvalid, hgiven⟩
  · rintro ⟨text, description, label, target, htext, hdescription, htarget, hvalid, hgiven⟩
    exact .gn htext hdescription htarget hvalid hgiven

theorem listsTwice_visualStudio_iff (hload : VisualStudio.load settings tree path = .ok found) :
    ListsTwice tree path .visualStudio ↔ ∃ project ∈ found.projects, ¬ project.files.Nodup := by
  have htwice (directory : String) (root : Element) :
      ¬ ((VisualStudio.groupItems root).filterMap (VisualStudio.file? directory)).Nodup ↔
        GivenTwice (VisualStudio.Gives directory) (VisualStudio.groupItems root) := by
    rw [nodup_filterMap_iff fun _ _ => VisualStudio.file?_eq_some_iff, not_not]
  rw [@VisualStudio.exists_files_iff_of_load _ _ _ _ hload fun files => ¬ files.Nodup]
  simp only [htwice]
  constructor
  · intro h
    cases h with
    | visualStudio htext hproject hroot hgiven =>
        exact ⟨_, _, _, htext, hproject, hroot, hgiven⟩
  · rintro ⟨text, project, root, htext, hproject, hroot, hgiven⟩
    exact .visualStudio htext hproject hroot hgiven

theorem listsTwice_codeBlocks_iff (hload : CodeBlocks.load tree path = .ok found) :
    ListsTwice tree path .codeBlocks ↔ ∃ project ∈ found.projects, ¬ project.files.Nodup := by
  have htwice (directory title : String) (project : Element) :
      ¬ (CodeBlocks.filesFor directory project title).Nodup ↔
        GivenTwice (CodeBlocks.Gives directory title) (CodeBlocks.unitOptions project) := by
    rw [CodeBlocks.filesFor, nodup_filterMap_iff fun _ _ => CodeBlocks.fileFor?_eq_some_iff,
      not_not]
  -- a project without files has none twice, so it does not matter which target it comes from
  rw [@CodeBlocks.exists_files_iff_of_load _ _ _ hload (fun files => ¬ files.Nodup)
    (not_not.2 List.nodup_nil)]
  simp only [htwice]
  constructor
  · intro h
    cases h with
    | codeBlocks htext hproject hmem htitle hgiven =>
        exact ⟨_, _, _, htext, hproject, hmem, htitle, hgiven⟩
  · rintro ⟨text, project, title, htext, hproject, hmem, htitle, hgiven⟩
    exact .codeBlocks htext hproject hmem htitle hgiven

/-- The files of each project of a document differ just when the document lists none of them twice
for one project. -/
theorem nodup_files_iff_of_load {format : SourceFormat}
    (hload : format.load settings tree path = .ok found) :
    (∀ project ∈ found.projects, project.files.Nodup) ↔ ¬ ListsTwice tree path format := by
  have htwice : ListsTwice tree path format ↔
      ∃ project ∈ found.projects, ¬ project.files.Nodup := by
    cases format with
    | gn => exact listsTwice_gn_iff hload
    | visualStudio => exact listsTwice_visualStudio_iff hload
    | codeBlocks => exact listsTwice_codeBlocks_iff hload
  rw [htwice]
  simp only [not_exists, not_and, not_not]

end Load

/-- A project file in which one file's element names a target twice. -/
def repeatingText : String :=
  "<CodeBlocks_project_file><Project><Build><Target title=\"t\"/></Build><Unit filename=\"a.c\">" ++
    "<Option target=\"t\"/><Option target=\"t\"/></Unit></Project></CodeBlocks_project_file>"

/-- A tree in which a document of each format lists one file twice. -/
def repeatingTree : FileTree where
  files := [
    (["gn.json"], ("\x7b\"targets\":\x7b\"a\":\x7b\"type\":\"executable\",\"sources\":[\"a.c\"]," ++
      "\"inputs\":[\"a.c\"]\x7d\x7d\x7d").toUTF8),
    (["a.sln"], "Project() = app, app.vcxproj, A".toUTF8),
    (["app.vcxproj"], ("<Project><ItemGroup><None Include=\"a.c\"/><None Include=\"a.c\"/>" ++
      "</ItemGroup></Project>").toUTF8),
    (["p.cbp"], repeatingText.toUTF8)]

/-- The element that describes the project of the project file. -/
def repeatingProject : Element :=
  ⟨"Project", [], [.element "Build" [] [.element "Target" [("title", "t")] []],
    .element "Unit" [("filename", "a.c")] [.element "Option" [("target", "t")] [],
      .element "Option" [("target", "t")] []]]⟩

/-- The element of the file with either of its options. -/
def repeatingPlace : Element × Element :=
  (⟨"Unit", [("filename", "a.c")], [.element "Option" [("target", "t")] [],
    .element "Option" [("target", "t")] []]⟩, ⟨"Option", [("target", "t")], []⟩)

theorem describes_repeatingText : CodeBlocks.Describes repeatingText repeatingProject :=
  ⟨⟨"CodeBlocks_project_file", [], [repeatingProject.toNode]⟩,
    Xml.parse_of_read String.ofList_append.symm (by decide) (by decide +kernel), rfl, rfl⟩

theorem readText_repeatingTree : repeatingTree.readText "p.cbp" = .ok repeatingText :=
  FileTree.readText_eq_ok_iff.2 ⟨_, rfl, Text.fromUTF8?_toUTF8 repeatingText⟩

theorem nodup_files_iff_of_load_repeatingTree :
    ∃ found, SourceFormat.codeBlocks.load {} repeatingTree "p.cbp" = .ok found ∧
      ListsTwice repeatingTree "p.cbp" .codeBlocks ∧
      ¬ ∀ project ∈ found.projects, project.files.Nodup := by
  have hplaces : CodeBlocks.unitOptions repeatingProject = [repeatingPlace, repeatingPlace] := rfl
  have hgives : CodeBlocks.Gives (Path.directory "p.cbp") "t" repeatingPlace "a.c" :=
    ⟨rfl, "a.c", rfl, by decide +kernel⟩
  have htwice : ListsTwice repeatingTree "p.cbp" .codeBlocks :=
    .codeBlocks readText_repeatingTree describes_repeatingText (List.mem_singleton_self _)
      (by decide) ⟨[], _, [], _, [], _, hplaces, hgives, hgives⟩
  obtain ⟨found, hload⟩ : ∃ found,
      SourceFormat.codeBlocks.load {} repeatingTree "p.cbp" = .ok found := by
    rw [SourceFormat.load, describes_repeatingText.load_eq readText_repeatingTree]
    exact ⟨_, rfl⟩
  exact ⟨found, hload, htwice, fun h => (nodup_files_iff_of_load hload).1 h htwice⟩

/-- No format keeps the file from being there twice. -/
theorem not_nodup_files_repeatingTree :
    (∃ found, SourceFormat.gn.load {} repeatingTree "gn.json" = .ok found ∧
      ∃ project ∈ found.projects, ¬ project.files.Nodup) ∧
    (∃ found, SourceFormat.visualStudio.load {} repeatingTree "a.sln" = .ok found ∧
      ∃ project ∈ found.projects, ¬ project.files.Nodup) ∧
    ∃ found, SourceFormat.codeBlocks.load {} repeatingTree "p.cbp" = .ok found ∧
      ∃ project ∈ found.projects, ¬ project.files.Nodup := by
  have hfound {format : SourceFormat} {path : String}
      (h : (format.load {} repeatingTree path).toOption.any (fun found =>
        found.projects.any fun project => !decide project.files.Nodup) = true) :
      ∃ found, format.load {} repeatingTree path = .ok found ∧
        ∃ project ∈ found.projects, ¬ project.files.Nodup := by
    obtain ⟨found, hload, hprojects⟩ := (Option.any_eq_true _ _).1 h
    obtain ⟨project, hproject, hfiles⟩ := List.any_eq_true.1 hprojects
    exact ⟨found, FileTree.toOption_eq_some_iff.1 hload, project, hproject, by simpa using hfiles⟩
  refine ⟨hfound ?_, hfound ?_, ?_⟩
  · decide +kernel
  · decide +kernel
  · rw [SourceFormat.load, describes_repeatingText.load_eq readText_repeatingTree]
    refine ⟨_, rfl, ?_⟩
    decide +kernel

end BuildAtlas
