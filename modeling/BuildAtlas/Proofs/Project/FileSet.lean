import BuildAtlas.Proofs.Project.Settings
import Mathlib.Data.List.Count
import Mathlib.Data.List.Induction

/-!
# BuildAtlas.Proofs.Project.FileSet

Changes treat the files of a project as a set.

A project may be built from a list with repeats, which one addition would refuse and one deletion
removes all at once. What a change does to the list of files is told by how often each path occurs
there (`count_apply`), so changes of different paths can be made in either order
(`perm_apply_apply`) and lists in another order stay so (`perm_apply`). The shown groups follow from
the files by `Grouped`, and so does the store of files by group, which a new file that is deleted
again leaves as it was.
-/

namespace BuildAtlas

namespace FileEdit

/-- The path that a change is about. -/
def path : FileEdit → String
  | .add path | .delete path => path

/-- The list of files after a change. -/
def apply : FileEdit → List String → List String
  | .add path, files => if path ∈ files then files else files ++ [path]
  | .delete path, files => files.filter (· != path)

/-- The last of the changes that are about a path. -/
def lastOn (path : String) (changes : List FileEdit) : Option FileEdit :=
  (changes.filter (·.path == path)).getLast?

/-! ### Lists of files -/

/-- How often a path occurs after a change: an addition makes it at least one, a deletion makes it
none, and other paths occur as often as before. -/
theorem count_apply (change : FileEdit) (files : List String) (path : String) :
    (change.apply files).count path =
      if change.path = path then
        match change with
        | .add _ => max (files.count path) 1
        | .delete _ => 0
      else files.count path := by
  cases change with
  | add added =>
      by_cases hpath : added = path
      · subst hpath
        by_cases hmem : added ∈ files
        · simp [apply, FileEdit.path, hmem]
        · simp [apply, FileEdit.path, hmem, List.count_eq_zero_of_not_mem]
      · by_cases hmem : added ∈ files
        · simp [apply, FileEdit.path, hmem, hpath]
        · simp [apply, FileEdit.path, hmem, hpath, List.count_append]
  | delete deleted =>
      by_cases hpath : deleted = path
      · subst hpath
        simp [apply, FileEdit.path, List.count_eq_zero]
      · simp [apply, FileEdit.path, hpath, List.count_filter, Ne.symm hpath]

theorem mem_apply_iff {change : FileEdit} {files : List String} {path : String} :
    path ∈ change.apply files ↔
      if change.path = path then change = .add path else path ∈ files := by
  rw [← List.count_pos_iff, count_apply]
  by_cases hpath : change.path = path
  · rw [if_pos hpath, if_pos hpath]
    cases change with
    | add added =>
        have hadded : added = path := hpath
        have hpos : 0 < max (files.count path) 1 := by omega
        simp [hadded, hpos]
    | delete deleted => simp
  · rw [if_neg hpath, if_neg hpath, List.count_pos_iff]

/-- A deletion of a path that is no file changes nothing. -/
theorem apply_delete_of_not_mem {files : List String} {path : String} (h : path ∉ files) :
    (delete path).apply files = files := by
  refine List.filter_eq_self.2 fun p hp => ?_
  have hne : p ≠ path := fun e => h (e ▸ hp)
  simpa using hne

/-- The order of the files has no part in a change. -/
theorem perm_apply {files files' : List String} (h : files.Perm files') (change : FileEdit) :
    (change.apply files).Perm (change.apply files') := by
  rw [List.perm_iff_count]
  intro path
  rw [count_apply, count_apply, h.count_eq]

/-- Changes of different paths can be made in either order. -/
theorem perm_apply_apply {a b : FileEdit} (h : a.path ≠ b.path) (files : List String) :
    (b.apply (a.apply files)).Perm (a.apply (b.apply files)) := by
  rw [List.perm_iff_count]
  intro path
  by_cases ha : a.path = path
  · have hb : b.path ≠ path := fun e => h (ha.trans e.symm)
    simp only [count_apply, ha, hb, ↓reduceIte]
  · simp only [count_apply, ha, ↓reduceIte]

end FileEdit

namespace Project

/-! ### Changes of a project -/

/-- The answer to a change: is it made? -/
def accepts (project : Project) (change : FileEdit) : Bool :=
  (change.result? project).isSome

/-- The answers to a run of changes. -/
def answers (project : Project) : List FileEdit → List Bool
  | [] => []
  | change :: changes => project.accepts change :: (project.edit change).answers changes

theorem files_edit (project : Project) (change : FileEdit) :
    (project.edit change).files = change.apply project.files := by
  cases change with
  | add path =>
      by_cases h : path ∈ project.files
      · simp [edit, FileEdit.result?, FileEdit.apply, addFile?, h]
      · simp [edit, FileEdit.result?, FileEdit.apply, addFile?, pushFile, h]
  | delete path =>
      by_cases h : path ∈ project.files
      · simp [edit, FileEdit.result?, FileEdit.apply, deleteFile?, h]
      · rw [FileEdit.apply_delete_of_not_mem h]
        simp [edit, FileEdit.result?, deleteFile?, h]

/-- A change is accepted if it changes whether its path is a file. -/
theorem accepts_iff_apply (project : Project) (change : FileEdit) :
    project.accepts change = true ↔
      ¬(change.path ∈ change.apply project.files ↔ change.path ∈ project.files) := by
  rw [FileEdit.mem_apply_iff, if_pos rfl]
  cases change with
  | add path =>
      by_cases h : path ∈ project.files
      · simp [accepts, FileEdit.result?, FileEdit.path, addFile?, h]
      · simp [accepts, FileEdit.result?, FileEdit.path, addFile?, h]
  | delete path =>
      by_cases h : path ∈ project.files
      · simp [accepts, FileEdit.result?, FileEdit.path, deleteFile?, h]
      · simp [accepts, FileEdit.result?, FileEdit.path, deleteFile?, h]

theorem accepts_add_iff {project : Project} {path : String} :
    project.accepts (.add path) = true ↔ path ∉ project.files := by
  rw [accepts_iff_apply, FileEdit.mem_apply_iff, if_pos rfl]
  simp [FileEdit.path]

theorem accepts_delete_iff {project : Project} {path : String} :
    project.accepts (.delete path) = true ↔ path ∈ project.files := by
  rw [accepts_iff_apply, FileEdit.mem_apply_iff, if_pos rfl]
  simp [FileEdit.path]

/-- Projects give the same answer to a change if they agree on whether its path is a file. -/
theorem accepts_congr {p q : Project} {change : FileEdit}
    (h : change.path ∈ p.files ↔ change.path ∈ q.files) : p.accepts change = q.accepts change := by
  rw [Bool.eq_iff_iff, accepts_iff_apply, accepts_iff_apply, FileEdit.mem_apply_iff,
    FileEdit.mem_apply_iff, if_pos rfl, if_pos rfl, h]

theorem edit_eq_of_not_accepts {project : Project} {change : FileEdit}
    (h : project.accepts change = false) : project.edit change = project := by
  have hnone : change.result? project = none := by
    simpa [accepts] using h
  rw [edit, hnone, Option.getD_none]

/-! ### Runs -/

theorem editAll_append (project : Project) (changes changes' : List FileEdit) :
    project.editAll (changes ++ changes') = (project.editAll changes).editAll changes' :=
  List.foldl_append ..

/-- Projects with the same files, in whatever order, have the same files after the same changes. -/
theorem perm_files_editAll {p q : Project} (h : p.files.Perm q.files) (changes : List FileEdit) :
    (p.editAll changes).files.Perm (q.editAll changes).files := by
  induction changes generalizing p q with
  | nil => exact h
  | cons change rest ih =>
      refine ih ?_
      rw [files_edit, files_edit]
      exact FileEdit.perm_apply h change

theorem answers_congr {p q : Project} (h : p.files.Perm q.files) (changes : List FileEdit) :
    p.answers changes = q.answers changes := by
  induction changes generalizing p q with
  | nil => rfl
  | cons change rest ih =>
      have hrest : (p.edit change).files.Perm (q.edit change).files := by
        rw [files_edit, files_edit]
        exact FileEdit.perm_apply h change
      rw [answers, answers, accepts_congr h.mem_iff, ih hrest]

/-- The last change of a path decides whether it is a file. The induction takes the last change
off. -/
theorem mem_files_editAll_iff (project : Project) (changes : List FileEdit) (path : String) :
    path ∈ (project.editAll changes).files ↔
      FileEdit.lastOn path changes = some (.add path) ∨
        FileEdit.lastOn path changes = none ∧ path ∈ project.files := by
  induction changes using List.reverseRecOn with
  | nil => simp [editAll, FileEdit.lastOn]
  | append_singleton changes change ih =>
      rw [editAll_append]
      change path ∈ ((project.editAll changes).edit change).files ↔ _
      rw [files_edit, FileEdit.mem_apply_iff, ih]
      by_cases hpath : change.path = path
      · simp [FileEdit.lastOn, hpath]
      · simp [FileEdit.lastOn, hpath]

/-- A path that occurs once does so until it is deleted. -/
theorem count_editAll_eq_one {project : Project} {path : String}
    (h : project.files.count path = 1) {changes : List FileEdit}
    (hkept : .delete path ∉ changes) : (project.editAll changes).files.count path = 1 := by
  induction changes generalizing project with
  | nil => exact h
  | cons change rest ih =>
      obtain ⟨hchange, hrest⟩ := not_or.1 (List.mem_cons.not.1 hkept)
      refine ih ?_ hrest
      rw [files_edit, FileEdit.count_apply, h]
      cases change with
      | add added => simp
      | delete deleted =>
          have hne : deleted ≠ path := fun e => hchange (e ▸ rfl)
          exact if_neg hne

/-! ### Groups -/

/-- The shown groups are told by the files: each group that occurs, with its files sorted. -/
theorem Grouped.groups_eq {project : Project} (h : project.Grouped) :
    project.groups = (FileGroup.all.filter fun group =>
        ∃ path ∈ project.files, FileGroup.ofPath path = group).map fun group =>
      (group, (project.filesIn group).mergeSort) := by
  rw [← h.keys_eq, SortedMap.keys, List.map_map, groups]
  refine List.map_congr_left fun entry hentry => ?_
  obtain ⟨hlisted, -⟩ := h.find?_eq_some_iff.1 (SortedMap.mem_toList_iff.1 hentry)
  rw [Function.comp_apply, ← hlisted]

theorem mergeSort_eq_of_perm {files files' : List String} (h : files.Perm files') :
    files.mergeSort = files'.mergeSort :=
  List.Perm.eq_of_pairwise (fun _ _ _ _ hab hba => String.le_antisymm hab hba)
    (pairwise_mergeSort_le files) (pairwise_mergeSort_le files')
    ((List.mergeSort_perm files _).trans (h.trans (List.mergeSort_perm files' _).symm))

/-- Projects with the same files, in whatever order, show the same groups. -/
theorem Grouped.groups_eq_of_perm {p q : Project} (hp : p.Grouped) (hq : q.Grouped)
    (h : p.files.Perm q.files) : p.groups = q.groups := by
  have hfiles (group : FileGroup) : (p.filesIn group).mergeSort = (q.filesIn group).mergeSort :=
    mergeSort_eq_of_perm (h.filter _)
  rw [hp.groups_eq, hq.groups_eq]
  simp only [h.mem_iff, hfiles]

/-- Projects with the same files in the same order have the same files by group. -/
theorem Grouped.filesByGroup_eq {p q : Project} (hp : p.Grouped) (hq : q.Grouped)
    (h : p.files = q.files) : p.filesByGroup = q.filesByGroup := by
  refine SortedMap.ext_find? fun group => Option.ext fun listed => ?_
  rw [hp.find?_eq_some_iff, hq.find?_eq_some_iff, filesIn, filesIn, h]

/-- A new file that is deleted again leaves the project as it was. -/
theorem Grouped.edit_edit_delete {project : Project} (h : project.Grouped) {path : String}
    (hnew : path ∉ project.files) :
    (project.edit (.add path)).edit (.delete path) = project := by
  have hfiles : ((project.edit (.add path)).edit (.delete path)).files = project.files := by
    have hkept : project.files.filter (· != path) = project.files :=
      FileEdit.apply_delete_of_not_mem hnew
    simp [files_edit, FileEdit.apply, hnew, hkept]
  have hgroups := Grouped.filesByGroup_eq ((h.edit (.add path)).edit (.delete path)) h hfiles
  obtain ⟨files, groups, heq⟩ := editAll_eq project [.add path, .delete path]
  change (project.edit (.add path)).edit (.delete path) = _ at heq
  rw [heq] at hfiles hgroups ⊢
  subst hfiles hgroups
  rfl

/-! ### Files as a set -/

/-- Changes act on the files of a project as on a set. -/
structure ActsAsSet (project : Project) : Prop where
  /-- The answer to a change tells whether its path came in or went out. -/
  accepts_iff : ∀ change, project.accepts change = true ↔
    ¬(change.path ∈ (project.edit change).files ↔ change.path ∈ project.files)
  /-- A change that is not accepted leaves the project as it is. -/
  edit_eq : ∀ change, project.accepts change = false → project.edit change = project
  /-- A file that is added where it is absent occurs once until it is deleted. -/
  count_eq_one : ∀ path ∉ project.files, ∀ later, .delete path ∉ later →
    ((project.edit (.add path)).editAll later).files.count path = 1
  /-- A deletion takes all copies of its path out of the files and out of the groups, and no other
  file. -/
  files_delete : ∀ path,
    (project.edit (.delete path)).files = project.files.filter (· != path) ∧
    ∀ shown ∈ (project.edit (.delete path)).groups, path ∉ shown.2
  /-- Two changes of different paths get the same answers in either order, and so do all changes
  after them. The shown groups are the same, and the files are up to their order. -/
  commute : ∀ a b, a.path ≠ b.path →
    project.accepts a = (project.edit b).accepts a ∧
    (project.edit a).accepts b = project.accepts b ∧
    ∀ later,
      ((project.edit a).edit b).answers later = ((project.edit b).edit a).answers later ∧
      (((project.edit a).edit b).editAll later).groups
        = (((project.edit b).edit a).editAll later).groups ∧
      (((project.edit a).edit b).editAll later).files.Perm
        (((project.edit b).edit a).editAll later).files
  /-- A new file that is deleted again leaves no trace. -/
  restore : ∀ path ∉ project.files, (project.edit (.add path)).edit (.delete path) = project

theorem Grouped.actsAsSet {project : Project} (h : project.Grouped) : project.ActsAsSet where
  accepts_iff change := by
    rw [accepts_iff_apply, files_edit]
  edit_eq _ := edit_eq_of_not_accepts
  count_eq_one path hpath later hlater := by
    refine count_editAll_eq_one ?_ hlater
    rw [files_edit, FileEdit.count_apply, List.count_eq_zero_of_not_mem hpath]
    exact if_pos rfl
  files_delete path := by
    refine ⟨files_edit .., fun shown hshown hmem => ?_⟩
    obtain ⟨hperm, -⟩ := (h.edit (.delete path)).of_mem_groups hshown
    have hfile := (mem_filesIn.1 (hperm.mem_iff.1 hmem)).1
    rw [files_edit] at hfile
    simp [FileEdit.apply] at hfile
  commute a b hab := by
    have hperm : ((project.edit a).edit b).files.Perm ((project.edit b).edit a).files := by
      simp only [files_edit]
      exact FileEdit.perm_apply_apply hab project.files
    refine ⟨accepts_congr ?_, accepts_congr ?_, fun later => ⟨answers_congr hperm later, ?_,
      perm_files_editAll hperm later⟩⟩
    · rw [files_edit, FileEdit.mem_apply_iff, if_neg hab.symm]
    · rw [files_edit, FileEdit.mem_apply_iff, if_neg hab]
    · exact (((h.edit a).edit b).editAll later).groups_eq_of_perm
        (((h.edit b).edit a).editAll later) (perm_files_editAll hperm later)
  restore _ := h.edit_edit_delete

/-- In every project that a run of changes reaches, changes act as on a set, and the last change of
a path tells whether it is a file; a path without a change is one if it was one at first. -/
theorem actsAsSet_editAll_ofTarget (name fullName : String) (files : List String)
    (settings : PerConfiguration TargetSettings) (isReadOnly : Bool) (changes : List FileEdit) :
    let project := (ofTarget name fullName files settings isReadOnly).editAll changes
    project.ActsAsSet ∧
    ∀ path, path ∈ project.files ↔
      FileEdit.lastOn path changes = some (.add path) ∨
        FileEdit.lastOn path changes = none ∧ path ∈ files := by
  intro project
  have hgrouped : project.Grouped :=
    (grouped_ofTarget name fullName files settings isReadOnly).editAll changes
  refine ⟨hgrouped.actsAsSet, fun path => ?_⟩
  rw [mem_files_editAll_iff, ofTarget_files]

end Project

end BuildAtlas
