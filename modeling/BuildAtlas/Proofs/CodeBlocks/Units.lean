import BuildAtlas.CodeBlocks
import BuildAtlas.Proofs.FileTree
import BuildAtlas.Proofs.Imported
import BuildAtlas.Proofs.LastGiven
import BuildAtlas.Proofs.Xml.Document

/-!
# BuildAtlas.Proofs.CodeBlocks.Units

Which files the targets of a project file get, and which targets become projects.

Targets and files are listed apart, and a file's element names its targets by their titles. When the
titles differ, a target gets the files of all elements that name it, in the order of the document
(`filesFor`), and nothing else decides what it gets. A target becomes a project for its type or for
its files (`IsKept`), and where the targets stand among the files makes no difference
(`load_eq_kept_targets`).
-/

namespace BuildAtlas.CodeBlocks

open Xml (Element)

/-! ### Files -/

/-- The elements that describe files, each with one of its options, in the order of the document. -/
def unitOptions (project : Element) : List (Element × Element) :=
  (project.elementsNamed "Unit").flatMap fun unit =>
    (unit.elementsNamed "Option").map fun option => (unit, option)

/-- The file that an element with a file name and an option gives the target that the option
names. -/
def fileFor? (directory title : String) (pair : Element × Element) : Option String :=
  if pair.2.attribute? "target" = some title then
    (pair.1.attribute? "filename").map (Path.resolve directory)
  else none

/-- The files of the target with a title. -/
def filesFor (directory : String) (project : Element) (title : String) : List String :=
  (unitOptions project).filterMap (fileFor? directory title)

/-- The files that one element gives a target are those of its options. -/
theorem belongings_of_title {directory title : String} (htitle : title ≠ "") (unit : Element) :
    ((belongings directory unit).filter (·.1 == title)).map Prod.snd =
      ((unit.elementsNamed "Option").map fun option => (unit, option)).filterMap
        (fileFor? directory title) := by
  rw [belongings, owners, List.filterMap_map]
  cases hname : unit.attribute? "filename" with
  | none =>
      have hnone (option : Element) : fileFor? directory title (unit, option) = none := by
        rw [fileFor?, hname]
        exact ite_self none
      simp [hnone]
  | some name =>
      have hfile : (fileFor? directory title ∘ fun option => (unit, option)) = fun option =>
          if option.attribute? "target" = some title then some (Path.resolve directory name)
          else none := by
        funext option
        rw [Function.comp_apply, fileFor?, hname]
        rfl
      rw [hfile]
      induction unit.elementsNamed "Option" with
      | nil => rfl
      | cons option options ih =>
          cases howner : option.attribute? "target" with
          | none => simpa [howner] using ih
          | some owner =>
              by_cases hsame : owner = title
              · simpa [howner, hsame, htitle] using ih
              · by_cases hempty : owner = ""
                · simpa [howner, hsame, hempty, htitle.symm] using ih
                · simpa [howner, hsame, hempty] using ih

/-- The files that belong to a title are those of the target with the title. -/
theorem belongings_eq_filesFor {directory title : String} (htitle : title ≠ "")
    (project : Element) :
    (((project.elementsNamed "Unit").flatMap (belongings directory)).filter
      (·.1 == title)).map Prod.snd = filesFor directory project title := by
  rw [filesFor, unitOptions, List.filter_flatMap, List.map_flatMap, List.filterMap_flatMap]
  exact congrArg (List.flatMap · _) (funext (belongings_of_title htitle))

/-- The targets of a list with different titles get the files that belong to their titles. -/
theorem withFiles_eq_map {belonging : List (String × String)} {before : List String}
    {targets : List Target} (hbefore : ∀ target ∈ targets, target.title ∉ before)
    (htitles : (targets.map Target.title).Nodup) : withFiles belonging before targets =
      targets.map fun target =>
        (target, (belonging.filter (·.1 == target.title)).map Prod.snd) := by
  induction targets generalizing before with
  | nil => rfl
  | cons target targets ih =>
      rw [List.forall_mem_cons] at hbefore
      obtain ⟨htarget, hrest⟩ := hbefore
      rw [List.map_cons, List.nodup_cons] at htitles
      obtain ⟨hfresh, htitles⟩ := htitles
      rw [withFiles, if_neg htarget, List.map_cons, ih ?_ htitles]
      intro other hother hmem
      rcases List.mem_cons.1 hmem with htitle | hmem
      · exact hfresh (htitle ▸ List.mem_map_of_mem hother)
      · exact hrest other hother hmem

/-! ### Targets -/

/-- The elements of the titled targets, which stand in the first list of targets, with the
titles. -/
def titledTargets (project : Element) : List (String × Element) :=
  match (project.elementsNamed "Build").head? with
  | none => []
  | some build => (build.elementsNamed "Target").filterMap fun target =>
      (target.attribute? "title").map fun title => (title, target)

/-- The target with a title that an element describes. -/
def Target.ofTitled (entry : String × Element) : Target where
  title := entry.1
  kind := optionValue entry.2 "type"
  output := optionValue entry.2 "output"
  objectOutput := optionValue entry.2 "object_output"
  workingDir := optionValue entry.2 "working_dir"
  includeDirs := compilerValues entry.2 "directory"
  options := compilerValues entry.2 "option"

/-- The targets are the titled ones. -/
theorem targetsOf_eq_withFiles (directory : String) (project : Element) :
    targetsOf directory project =
      withFiles ((project.elementsNamed "Unit").flatMap (belongings directory)) []
        ((titledTargets project).map Target.ofTitled) := by
  rw [targetsOf, titledTargets]
  cases project.elementsNamed "Build" with
  | nil => rfl
  | cons build rest =>
      refine congrArg (withFiles _ []) ?_
      show _ = List.map _ (List.filterMap _ _)
      rw [List.map_filterMap]
      refine List.filterMap_congr fun target _ => ?_
      rw [Target.ofElement?]
      cases target.attribute? "title" with
      | none => rfl
      | some title => rfl

/-- With different titles, none of them empty, the targets get the files of their titles. -/
theorem targetsOf_eq {directory : String} {project : Element}
    (hempty : "" ∉ (titledTargets project).map Prod.fst)
    (htitles : ((titledTargets project).map Prod.fst).Nodup) :
    targetsOf directory project = (titledTargets project).map fun entry =>
      (Target.ofTitled entry, filesFor directory project entry.1) := by
  have hnodup : (((titledTargets project).map Target.ofTitled).map Target.title).Nodup := by
    rw [List.map_map]
    exact htitles
  rw [targetsOf_eq_withFiles, withFiles_eq_map (fun _ _ => List.not_mem_nil) hnodup, List.map_map]
  refine List.map_congr_left fun entry hentry => ?_
  have hne : entry.1 ≠ "" := fun h => hempty (h ▸ List.mem_map_of_mem hentry)
  exact congrArg (Target.ofTitled entry, ·) (belongings_eq_filesFor hne project)

/-! ### Types -/

/-- The numbers of types that a project always has, and what is made then. -/
def numbers : List (String × TargetKind) :=
  [("1", .executable), ("2", .staticLibrary), ("3", .sharedLibrary)]

/-- An option of a target gives the number of its type. -/
def GivesType (option : Element) (number : String) : Prop :=
  option.attribute? "type" = some number

/-- The number that the options of a target give last. -/
def HasType (target : Element) (number : String) : Prop :=
  LastGives GivesType (target.elementsNamed "Option") number

theorem getLast?_types_eq_some_iff {target : Element} {number : String} :
    ((target.elementsNamed "Option").filterMap (·.attribute? "type")).getLast? = some number ↔
      HasType target number :=
  getLast?_filterMap_eq_some_iff fun _ _ => Iff.rfl

instance (target : Element) (number : String) : Decidable (HasType target number) :=
  decidable_of_iff _ getLast?_types_eq_some_iff

theorem optionValue_eq_iff {target : Element} {number : String} (h : number ≠ "") :
    Target.optionValue target "type" = number ↔ HasType target number := by
  rw [Target.optionValue, ← getLast?_types_eq_some_iff]
  cases ((target.elementsNamed "Option").filterMap (·.attribute? "type")).getLast? with
  | none => simpa using h.symm
  | some found => simp

theorem kind_ofTitled_eq_iff {entry : String × Element} {number : String}
    (h : number ∈ numbers.map Prod.fst) :
    (Target.ofTitled entry).kind = number ↔ HasType entry.2 number := by
  have hne : ∀ number ∈ numbers.map Prod.fst, number ≠ "" := by decide
  exact optionValue_eq_iff (hne number h)

theorem projectKind?_of_number {target : Target} {kind : TargetKind}
    (h : (target.kind, kind) ∈ numbers) (files : List String) :
    target.projectKind? files = some kind := by
  simp only [numbers, List.mem_cons, Prod.mk.injEq, List.not_mem_nil, or_false] at h
  rw [Target.projectKind?]
  rcases h with ⟨hnumber, rfl⟩ | ⟨hnumber, rfl⟩ | ⟨hnumber, rfl⟩
  · rw [hnumber]
    rfl
  · rw [hnumber]
    rfl
  · rw [hnumber]
    rfl

theorem projectKind?_of_other {target : Target} (h : target.kind ∉ numbers.map Prod.fst)
    (files : List String) :
    target.projectKind? files = if files.isEmpty then none else some .sourceSet := by
  simp only [numbers, List.map_cons, List.map_nil, List.mem_cons, List.not_mem_nil, or_false,
    not_or] at h
  obtain ⟨hone, htwo, hthree⟩ := h
  rw [Target.projectKind?]
  split
  · contradiction
  · contradiction
  · contradiction
  · rfl

/-! ### Projects -/

/-- A target becomes a project: for its type, or else for its files. -/
def IsKept (directory : String) (project : Element) (entry : String × Element) : Prop :=
  (∃ number ∈ numbers.map Prod.fst, HasType entry.2 number) ∨
    filesFor directory project entry.1 ≠ []

instance (directory : String) (project : Element) : DecidablePred (IsKept directory project) :=
  fun _ => inferInstanceAs (Decidable (_ ∨ _))

/-- The project that the import of a file at `path` makes of a titled target. -/
structure IsProjectOf (path : String) (project : Element) (p : Project)
    (entry : String × Element) : Prop where
  name_eq : p.name = entry.1
  fullName_eq : p.fullName = (Path.fileName? path).getD "" ++ ":" ++ entry.1
  files_eq : p.files = filesFor (Path.directory path) project entry.1
  /-- The type tells what is made. -/
  kind_eq : ∀ number kind, (number, kind) ∈ numbers → HasType entry.2 number →
    p.kind.find? "" = some kind
  /-- For other types nothing but the objects of the files is made. -/
  kind_of_other : (∀ number ∈ numbers.map Prod.fst, ¬ HasType entry.2 number) →
    p.kind.find? "" = some .sourceSet

/-- What is made of a target with its files. -/
def make? (path : String) (project : Element) (entry : String × Element) : Option Project :=
  (Target.ofTitled entry).toProject? (Imported.container path) (Path.directory path)
    (filesFor (Path.directory path) project entry.1)

theorem kind_mem_numbers_iff {entry : String × Element} :
    (Target.ofTitled entry).kind ∈ numbers.map Prod.fst ↔
      ∃ number ∈ numbers.map Prod.fst, HasType entry.2 number := by
  constructor
  · exact fun h => ⟨_, h, (kind_ofTitled_eq_iff h).1 rfl⟩
  · rintro ⟨number, hnumber, htype⟩
    rwa [(kind_ofTitled_eq_iff hnumber).2 htype]

theorem kind_ofTarget_singleton (name fullName : String) (files : List String)
    (settings : TargetSettings) (isReadOnly : Bool) :
    (Project.ofTarget name fullName files (.ofList [("", settings)]) isReadOnly).kind.find? "" =
      some settings.kind := by
  obtain ⟨groups, h⟩ :=
    Project.ofTarget_eq name fullName files (.ofList [("", settings)]) isReadOnly
  rw [h]
  rfl

/-- A target of which something is made is a project with its title and its files. -/
theorem make?_of_projectKind? {path : String} {project : Element} {entry : String × Element}
    {kind : TargetKind} (h : (Target.ofTitled entry).projectKind?
      (filesFor (Path.directory path) project entry.1) = some kind) :
    ∃ p, make? path project entry = some p ∧ IsProjectOf path project p entry := by
  rw [make?, Target.toProject?, h]
  refine ⟨_, rfl, Project.ofTarget_name .., Project.ofTarget_fullName .., Project.ofTarget_files ..,
    fun number kind' hmem htype => ?_, fun hother => ?_⟩
  · have hnumber := (kind_ofTitled_eq_iff (List.mem_map_of_mem hmem)).2 htype
    rw [kind_ofTarget_singleton]
    exact h.symm.trans (projectKind?_of_number (hnumber ▸ hmem) _)
  · have hkind : (Target.ofTitled entry).kind ∉ numbers.map Prod.fst := by
      rw [kind_mem_numbers_iff]
      rintro ⟨number, hnumber, htype⟩
      exact hother number hnumber htype
    rw [projectKind?_of_other hkind, Option.ite_none_left_eq_some] at h
    rw [kind_ofTarget_singleton]
    exact h.2.symm

theorem make?_of_isKept (path : String) (project : Element) (entry : String × Element)
    (h : IsKept (Path.directory path) project entry) :
    ∃ p, make? path project entry = some p ∧ IsProjectOf path project p entry := by
  by_cases hkind : (Target.ofTitled entry).kind ∈ numbers.map Prod.fst
  · obtain ⟨⟨number, kind⟩, hmem, hnumber⟩ := List.mem_map.1 hkind
    obtain rfl : number = (Target.ofTitled entry).kind := hnumber
    exact make?_of_projectKind? (projectKind?_of_number hmem _)
  · have hfiles := h.resolve_left fun htype => hkind (kind_mem_numbers_iff.2 htype)
    have hsources : (Target.ofTitled entry).projectKind?
        (filesFor (Path.directory path) project entry.1) = some .sourceSet := by
      rw [projectKind?_of_other hkind, if_neg (by simpa using hfiles)]
    exact make?_of_projectKind? hsources

theorem make?_of_not_isKept (path : String) (project : Element) (entry : String × Element)
    (h : ¬ IsKept (Path.directory path) project entry) : make? path project entry = none := by
  rw [IsKept, not_or, ← kind_mem_numbers_iff, not_not] at h
  obtain ⟨hkind, hfiles⟩ := h
  rw [make?, Target.toProject?, projectKind?_of_other hkind, hfiles]
  rfl

/-! ### Documents -/

/-- A text is a project file, and the element describes its project. -/
def Describes (text : String) (project : Element) : Prop :=
  ∃ root, Xml.parse (Text.withoutMarks text) = .ok root ∧ root.name = "CodeBlocks_project_file" ∧
    (root.elementsNamed "Project").head? = some project

theorem projectElement?_eq_iff {path text : String} {project : Element} :
    projectElement? path text = .ok (some project) ↔ Describes text project := by
  constructor
  · intro h
    rw [projectElement?] at h
    split at h
    · exact nomatch h
    · next root hroot =>
        split at h
        · next hname => exact ⟨root, hroot, hname, Except.ok.inj h⟩
        · exact nomatch h
  · rintro ⟨root, hroot, hname, hproject⟩
    rw [projectElement?, hroot, ← hproject]
    exact if_pos hname

theorem Describes.parse_eq {text : String} {project : Element} (h : Describes text project)
    (path : String) : parse path text = .ok (targetsOf (Path.directory path) project) := by
  rw [parse, projectElement?_eq_iff.2 h]
  rfl

/-- The project that is made of a target with its files, if any is. -/
def project? (path : String) (entry : Target × List String) : Option Project :=
  entry.1.toProject? (Imported.container path) (Path.directory path) entry.2

/-- The import makes projects of the targets with their files. -/
theorem Describes.load_eq {tree : FileTree} {path text : String} {project : Element}
    (h : Describes text project) (htext : tree.readText path = .ok text) :
    load tree path =
      .ok { projects := (targetsOf (Path.directory path) project).filterMap (project? path) } := by
  rw [load, Imported.ofDocument_of_readText htext, h.parse_eq path]
  rfl

/-- Whether the targets stand before, between or behind the files makes no difference. -/
theorem targetsOf_eq_of_eqvGen {project project' : Element}
    (h : Relation.EqvGen Xml.Exchange project.elements project'.elements) (directory : String) :
    targetsOf directory project = targetsOf directory project' := by
  have hnamed (name : String) : project.elementsNamed name = project'.elementsNamed name :=
    Xml.filter_name_eq_of_eqvGen h name
  rw [targetsOf, targetsOf, hnamed, hnamed]

/-- Let the titles of the targets of a project file differ, and let none be empty. Then the file is
imported, and its projects are those of the targets with one of the three types or with files, one
for each, in the order of the targets. Each has the files of the elements that name its target. A
file whose project differs in nothing but the places of elements with other names is imported
alike. -/
theorem load_eq_kept_targets {tree : FileTree} {path text : String} {project : Element}
    (htext : tree.readText path = .ok text) (hproject : Describes text project)
    (hempty : "" ∉ (titledTargets project).map Prod.fst)
    (htitles : ((titledTargets project).map Prod.fst).Nodup) :
    ∃ found, load tree path = .ok found ∧ found.configurations = [] ∧
      List.Forall₂ (IsProjectOf path project) found.projects
        ((titledTargets project).filter fun entry =>
          IsKept (Path.directory path) project entry) ∧
      ∀ tree' text' project', tree'.readText path = .ok text' → Describes text' project' →
        Relation.EqvGen Xml.Exchange project.elements project'.elements →
          load tree' path = .ok found := by
  refine ⟨_, hproject.load_eq htext, rfl, ?_,
    fun tree' text' project' htext' hproject' hmoved => ?_⟩
  · rw [targetsOf_eq hempty htitles, List.filterMap_map]
    exact Imported.forall₂_filterMap (IsProjectOf path project)
      (IsKept (Path.directory path) project) (make?_of_isKept path project)
      (make?_of_not_isKept path project) (titledTargets project)
  · rw [hproject'.load_eq htext', targetsOf_eq_of_eqvGen hmoved]

/-- A project file with a file in front of the targets, of which one has the file. -/
def sampleText : String :=
  "<CodeBlocks_project_file><Project><Unit filename=\"a.c\"><Option target=\"t\"/></Unit><Build>" ++
    "<Target title=\"t\"/><Target title=\"u\"/></Build></Project></CodeBlocks_project_file>"

/-- The element that describes its project. -/
def sampleProject : Element :=
  ⟨"Project", [], [.element "Unit" [("filename", "a.c")] [.element "Option" [("target", "t")] []],
    .element "Build" [] [.element "Target" [("title", "t")] [],
      .element "Target" [("title", "u")] []]]⟩

theorem describes_sampleText : Describes sampleText sampleProject :=
  ⟨⟨"CodeBlocks_project_file", [], [sampleProject.toNode]⟩,
    Xml.parse_of_read String.ofList_append.symm (by decide) (by decide +kernel), rfl, rfl⟩

theorem load_eq_kept_targets_sampleText :
    ∃ found p, load { files := [(["p.cbp"], sampleText.toUTF8)] } "p.cbp" = .ok found ∧
      found.projects = [p] ∧ p.fullName = "p.cbp:t" ∧ p.files = ["a.c"] ∧
      p.kind.find? "" = some .sourceSet := by
  have htext : FileTree.readText { files := [(["p.cbp"], sampleText.toUTF8)] } "p.cbp" =
      .ok sampleText :=
    FileTree.readText_eq_ok_iff.2 ⟨_, rfl, Text.fromUTF8?_toUTF8 sampleText⟩
  obtain ⟨found, hload, -, hprojects, -⟩ :=
    load_eq_kept_targets htext describes_sampleText (by decide +kernel) (by decide +kernel)
  have hkept : (titledTargets sampleProject).filter (fun entry =>
      IsKept (Path.directory "p.cbp") sampleProject entry) =
        [("t", ⟨"Target", [("title", "t")], []⟩)] := by
    decide +kernel
  rw [hkept] at hprojects
  obtain ⟨p, rest, hp, hrest, hfound⟩ := List.forall₂_cons_right_iff.1 hprojects
  obtain rfl := List.forall₂_nil_right_iff.1 hrest
  refine ⟨found, p, hload, hfound, ?_, ?_, hp.kind_of_other (by decide +kernel)⟩
  · rw [hp.fullName_eq]
    decide +kernel
  · rw [hp.files_eq]
    decide +kernel

end BuildAtlas.CodeBlocks
