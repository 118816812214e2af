import BuildAtlas.Gn.Import
import BuildAtlas.Proofs.FileTree
import BuildAtlas.Proofs.Imported
import BuildAtlas.Proofs.Text.Utf8

/-!
# BuildAtlas.Proofs.Gn.Import

Which targets of a build description become projects, and with which names and files.

What is said here does not mention the code of the import: a file is shown when its name has a
listed extension (`IsShown`), an entry stands for a path (`Resolves`), and a target is a project for
its kind, for a mark, or for a shown file (`Target.IsValid`). The import gives one project for each
valid target, in the order of the labels (`load_eq_valid_targets`).
-/

namespace BuildAtlas

/-- A listed extension is the extension of the file name. -/
theorem Imported.hasListedExtension_iff {extensions : List String} {path : String} :
    hasListedExtension extensions path = true ↔ ∃ name extension,
      Path.fileName? path = some name ∧ Path.HasExtension name extension ∧
        extension ∈ extensions := by
  delta hasListedExtension
  cases hfound : Path.extension? path with
  | none =>
      refine iff_of_false Bool.false_ne_true ?_
      rintro ⟨name, extension, hname, hhas, -⟩
      have hsome := Path.extension?_eq_some_iff.2 ⟨name, hname, hhas⟩
      rw [hfound] at hsome
      exact Option.some_ne_none _ hsome.symm
  | some found =>
      simp only [List.contains_iff_mem]
      constructor
      · intro hmem
        obtain ⟨name, hname, hhas⟩ := Path.extension?_eq_some_iff.1 hfound
        exact ⟨name, found, hname, hhas, hmem⟩
      · rintro ⟨name, extension, hname, hhas, hmem⟩
        have hsome := Path.extension?_eq_some_iff.2 ⟨name, hname, hhas⟩
        obtain rfl := Option.some.inj (hfound.symm.trans hsome)
        exact hmem

namespace Gn

/-! ### Files -/

/-- A path with a file name that has one of the listed extensions. -/
def IsShown (path : String) : Prop :=
  ∃ name extension, Path.fileName? path = some name ∧ Path.HasExtension name extension ∧
    extension ∈ shownExtensions

theorem hasListedExtension_iff_isShown {path : String} :
    Imported.hasListedExtension shownExtensions path = true ↔ IsShown path :=
  Imported.hasListedExtension_iff

instance : DecidablePred IsShown := fun _ => decidable_of_iff _ hasListedExtension_iff_isShown

/-- What an entry of a target stands for: with two slashes in front a path from the root, when one
is given, and itself otherwise. -/
inductive Resolves (rootPath : Option String) : String → String → Prop
  | fromRoot {root rest : String} (h : rootPath = some root) :
      Resolves rootPath ("//" ++ rest) (Path.join root rest)
  | asGiven {path : String} (h : rootPath = none ∨ ¬ "//".toList <+: path.toList) :
      Resolves rootPath path path

/-- An entry stands for one path. -/
theorem resolves_iff {rootPath : Option String} {path file : String} :
    Resolves rootPath path file ↔ file = resolve rootPath path := by
  constructor
  · intro h
    cases h with
    | fromRoot hroot =>
        subst hroot
        unfold resolve
        rw [Text.dropStart?_append]
    | asGiven hgiven =>
        unfold resolve
        rcases hgiven with rfl | hslashes
        · rfl
        · rw [Text.dropStart?_eq_none_iff.2 hslashes]
          cases rootPath <;> rfl
  · rintro rfl
    cases rootPath with
    | none => exact .asGiven (.inl rfl)
    | some root =>
        unfold resolve
        cases hrest : Text.dropStart? "//" path with
        | none => exact .asGiven (.inr (Text.dropStart?_eq_none_iff.1 hrest))
        | some rest =>
            obtain rfl := Text.dropStart?_eq_some_iff.1 hrest
            exact .fromRoot rfl

/-- What an entry stands for has the same file name. -/
theorem Resolves.isShown {rootPath : Option String} {path file : String}
    (h : Resolves rootPath path file) (hpath : IsShown path) : IsShown file := by
  cases h with
  | asGiven => exact hpath
  | @fromRoot root rest _ =>
      obtain ⟨name, extension, hname, hextension⟩ := hpath
      have hpieces : Path.pieces ("//" ++ rest) = ["", ""] ++ Path.pieces rest :=
        Path.pieces_append_slash "/" rest
      rw [Path.fileName?_of_pieces_append hpieces (by decide)] at hname
      exact ⟨name, extension, Path.fileName?_join_of_eq_some hname, hextension⟩

/-- The entries of a target that are shown, sources before inputs. -/
def Target.shownEntries (target : Target) : List String :=
  (target.sources ++ target.inputs).filter IsShown

theorem shownFiles_eq (rootPath : Option String) (target : Target) :
    shownFiles rootPath target = target.shownEntries.map (resolve rootPath) := by
  rw [shownFiles, Target.shownEntries]
  congr 1
  exact List.filter_congr fun path _ => by
    rw [Bool.eq_iff_iff, hasListedExtension_iff_isShown, decide_eq_true_iff]

/-! ### Targets -/

/-- A target that is a project: one that is linked, one that is marked as a whole, or one of a kind
that groups files, where a file is shown. -/
def Target.IsValid (target : Target) : Prop :=
  target.kind ∈ ["shared_library", "loadable_module", "executable"] ∨
    target.isMajor = true ∨ target.isCompleteStaticLibrary = true ∨
    target.kind ∈ ["static_library", "source_set", "action", "action_foreach"] ∧
      ∃ path ∈ target.sources ++ target.inputs, IsShown path

instance : DecidablePred Target.IsValid := fun _ => inferInstanceAs (Decidable (_ ∨ _ ∨ _ ∨ _))

theorem Target.isProject_iff {rootPath : Option String} {target : Target} :
    target.isProject (shownFiles rootPath target) = true ↔ target.IsValid := by
  have hfiles : shownFiles rootPath target ≠ [] ↔
      ∃ path ∈ target.sources ++ target.inputs, IsShown path := by
    rw [shownFiles_eq, Ne, List.map_eq_nil_iff, Target.shownEntries, List.filter_eq_nil_iff]
    simp
  rw [Target.IsValid, ← hfiles, Target.isProject]
  simp only [Bool.or_eq_true, Bool.and_eq_true, Bool.not_eq_true', List.isEmpty_eq_false_iff,
    List.contains_iff_mem, or_assoc, ne_eq]

/-! ### Names -/

/-- The name of a target is what follows the last colon of its label, without the toolchain. -/
theorem shortName_eq {dir name : String} (hdir : '(' ∉ dir.toList) (hcolon : ':' ∉ name.toList)
    (hname : '(' ∉ name.toList) (toolchain : String) :
    shortName (dir ++ ":" ++ name) = name ∧
      shortName (dir ++ ":" ++ name ++ "(" ++ toolchain ++ ")") = name := by
  have hbare : ∀ c ∈ (dir ++ ":" ++ name).toList, (c != '(') = true := by
    intro c hc
    rw [bne_iff_ne]
    rintro rfl
    rw [String.toList_append, String.toList_append, List.mem_append, List.mem_append] at hc
    rcases hc with (hc | hc) | hc
    · exact hdir hc
    · exact absurd hc (by decide)
    · exact hname hc
  have hlast {label : String} (h : label.toList.takeWhile (· != '(') =
      (dir ++ ":" ++ name).toList) : shortName label = name := by
    have hcut : Text.breakOnLast? ':' (dir ++ ":" ++ name).toList =
        some (dir.toList, name.toList) := by
      rw [Path.breakOnLast?_eq_some_iff, String.toList_append, String.toList_append]
      exact ⟨by simp, hcolon⟩
    rw [shortName, h, hcut]
    exact String.ofList_toList
  constructor
  · exact hlast (List.takeWhile_eq_self_iff.2 hbare)
  · refine hlast ?_
    rw [String.append_assoc, String.append_assoc, String.toList_append,
      List.takeWhile_append_of_pos hbare, String.toList_append, String.toList_append]
    simp

/-! ### Projects -/

/-- The project that the import of a description at `path` makes of a target. -/
structure IsProjectOf (path : String) (rootPath : Option String) (p : Project) (label : String)
    (target : Target) : Prop where
  fullName_eq : p.fullName = (Path.fileName? path).getD "" ++ ":" ++ label
  /-- The shown entries in their order, each as the path that it stands for. -/
  files : List.Forall₂ (Resolves rootPath) target.shownEntries p.files
  /-- No other files are there. -/
  isShown : ∀ file ∈ p.files, IsShown file
  /-- A label that ends in a name, or in a name with a toolchain, gives the name. -/
  name_eq : ∀ dir name toolchain, '(' ∉ dir.toList → ':' ∉ name.toList → '(' ∉ name.toList →
    label = dir ++ ":" ++ name ∨ label = dir ++ ":" ++ name ++ "(" ++ toolchain ++ ")" →
      p.name = name

theorem toProject?_of_isValid (settings : ImportSettings) (tree : FileTree) (path : String)
    (description : Description) (label : String) {target : Target} (h : target.IsValid) :
    ∃ p, toProject? settings tree (Imported.container path) description label target = some p ∧
      IsProjectOf path description.rootPath p label target := by
  rw [toProject?]
  rw [if_pos (Target.isProject_iff.2 h)]
  have hfiles : List.Forall₂ (Resolves description.rootPath) target.shownEntries
      (shownFiles description.rootPath target) := by
    rw [shownFiles_eq, List.forall₂_map_right_iff]
    exact List.forall₂_same.2 fun _ _ => resolves_iff.2 rfl
  refine ⟨_, rfl, ?_, ?_, ?_, ?_⟩
  · rw [Project.ofTarget_fullName]
    rfl
  · rwa [Project.ofTarget_files]
  · intro file hfile
    rw [Project.ofTarget_files, shownFiles_eq] at hfile
    obtain ⟨entry, hentry, rfl⟩ := List.mem_map.1 hfile
    have hshown := of_decide_eq_true (List.mem_filter.1 hentry).2
    exact (resolves_iff.2 rfl).isShown hshown
  · intro dir name toolchain hdir hcolon hname hlabel
    rw [Project.ofTarget_name]
    obtain ⟨hplain, htoolchain⟩ := shortName_eq hdir hcolon hname toolchain
    rcases hlabel with rfl | rfl
    · exact hplain
    · exact htoolchain

theorem toProject?_of_not_isValid (settings : ImportSettings) (tree : FileTree) (path : String)
    (description : Description) (label : String) {target : Target} (h : ¬ target.IsValid) :
    toProject? settings tree (Imported.container path) description label target = none := by
  rw [toProject?]
  rw [if_neg fun hproject => h (Target.isProject_iff.1 hproject)]

/-- The labels of a description increase in the order of their bytes. -/
theorem pairwise_utf8_labels (description : Description) :
    description.targets.toList.Pairwise fun a b => Text.utf8 a.1 < Text.utf8 b.1 :=
  (List.pairwise_map.1 (FileTree.pairwise_lt_keys description.targets)).imp Text.utf8_lt_utf8

theorem map_fullName_eq {path : String} {rootPath : Option String} {projects : List Project}
    {entries : List (String × Target)}
    (h : List.Forall₂ (fun p entry => IsProjectOf path rootPath p entry.1 entry.2) projects
      entries) : projects.map Project.fullName =
        entries.map fun entry => (Path.fileName? path).getD "" ++ ":" ++ entry.1 := by
  induction h with
  | nil => rfl
  | cons hproject _ ih => rw [List.map_cons, List.map_cons, ih, hproject.fullName_eq]

/-- A description that decodes is imported. Its projects are those of the valid targets, one for
each, in the order of the labels, which is that of their bytes, and no two of them have one full
name. -/
theorem load_eq_valid_targets (settings : ImportSettings) {tree : FileTree} {path text : String}
    {description : Description} (htext : tree.readText path = .ok text)
    (hdescription : Description.codec.decode text = .ok description) :
    ∃ found, load settings tree path = .ok found ∧ found.configurations = [] ∧
      List.Forall₂ (fun p entry => IsProjectOf path description.rootPath p entry.1 entry.2)
        found.projects (description.targets.toList.filter fun entry => entry.2.IsValid) ∧
      description.targets.toList.Pairwise (fun a b => Text.utf8 a.1 < Text.utf8 b.1) ∧
      (found.projects.map Project.fullName).Nodup := by
  have hprojects := Imported.forall₂_filterMap
    (fun p entry => IsProjectOf path description.rootPath p entry.1 entry.2)
    (fun entry => entry.2.IsValid)
    (fun entry => toProject?_of_isValid settings tree path description entry.1)
    (fun entry => toProject?_of_not_isValid settings tree path description entry.1)
    description.targets.toList
  have hload : load settings tree path = .ok
      { projects := description.targets.toList.filterMap fun entry =>
          toProject? settings tree (Imported.container path) description entry.1 entry.2 } := by
    rw [load, Imported.ofDocument_of_readText htext, hdescription]
  refine ⟨_, hload, rfl, hprojects, pairwise_utf8_labels description, ?_⟩
  -- the full names differ because the labels do
  have hlabels : (description.targets.toList.map Prod.fst).Nodup :=
    SortedMap.nodup_of_pairwise_lt description.targets.pairwise_keys
  rw [map_fullName_eq hprojects]
  refine List.pairwise_map.2 (((List.pairwise_map.1 hlabels).filter _).imp fun hne heq => hne ?_)
  exact (String.append_right_inj _).1 heq

/-- A description with a target that groups a file and one that builds nothing. -/
def sampleText : String :=
  "\x7b\"targets\":\x7b\"//a:b(t)\":\x7b\"type\":\"action\",\"inputs\":[\"//m.c\",\"n.md\"]\x7d," ++
    "\"//a:c\":\x7b\"type\":\"group\"\x7d\x7d,\"build_settings\":\x7b\"root_path\":\"/r\"\x7d\x7d"

theorem decode_sampleText :
    (Description.codec.decode sampleText).toOption.map (fun d => (d.targets.toList, d.rootPath)) =
      some ([("//a:b(t)", { kind := "action", inputs := ["//m.c", "n.md"] }),
        ("//a:c", { kind := "group" })], some "/r") := by
  decide +kernel

/-- A tree with this description. -/
def sampleTree : FileTree where
  files := [(["gn.json"], sampleText.toUTF8)]

theorem load_eq_valid_targets_sampleText :
    ∃ found p, load {} sampleTree "gn.json" = .ok found ∧
      found.projects = [p] ∧ p.fullName = "gn.json://a:b(t)" ∧ p.name = "b" ∧
      p.files = ["/r/m.c"] := by
  have htext : sampleTree.readText "gn.json" = .ok sampleText :=
    FileTree.readText_eq_ok_iff.2 ⟨_, rfl, Text.fromUTF8?_toUTF8 sampleText⟩
  cases hdescription : Description.codec.decode sampleText with
  | error fault =>
      have hdecode := decode_sampleText
      rw [hdescription] at hdecode
      exact nomatch hdecode
  | ok description =>
      have hdecode := decode_sampleText
      rw [hdescription] at hdecode
      obtain ⟨htargets, hroot⟩ := Prod.mk.inj (Option.some.inj hdecode)
      have hkept : description.targets.toList.filter (fun entry => entry.2.IsValid) =
          [("//a:b(t)", { kind := "action", inputs := ["//m.c", "n.md"] })] := by
        rw [htargets]
        decide +kernel
      obtain ⟨found, hload, -, hprojects, -, -⟩ :=
        load_eq_valid_targets {} htext hdescription
      rw [hkept] at hprojects
      obtain ⟨p, rest, hp, hrest, hfound⟩ := List.forall₂_cons_right_iff.1 hprojects
      obtain rfl := List.forall₂_nil_right_iff.1 hrest
      refine ⟨found, p, hload, hfound, ?_, ?_, ?_⟩
      · rw [hp.fullName_eq]
        decide +kernel
      · exact hp.name_eq "//a" "b" "t" (by decide) (by decide) (by decide) (.inr rfl)
      · have hshown : Target.shownEntries { kind := "action", inputs := ["//m.c", "n.md"] } =
            ["//m.c"] := by
          decide +kernel
        have hfiles := hp.files
        rw [hshown, hroot] at hfiles
        obtain ⟨file, more, hfile, hmore, hlist⟩ := List.forall₂_cons_left_iff.1 hfiles
        obtain rfl := List.forall₂_nil_left_iff.1 hmore
        rw [hlist, resolves_iff.1 hfile]
        rfl

end Gn

end BuildAtlas
