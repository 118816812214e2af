import BuildAtlas.Project
import BuildAtlas.Proofs.SortedMap

/-!
# BuildAtlas.Proofs.Project.Files

The two stores of a project's files agree after any run of changes.

A project keeps its files in their order and once more by group. `Grouped` says that the second
store is the first one, split by `FileGroup.ofPath`, and that no group stands there without files.
Adding one file keeps this (`Grouped.pushFile`), and so does deleting all copies of one
(`Grouped.deleteFile?`); with that it holds of every project that a run of changes reaches.
-/

namespace BuildAtlas

/-! ### Changes -/

/-- A change of a project's files. -/
inductive FileEdit
  | add (path : String)
  | delete (path : String)
  deriving Repr, DecidableEq

/-- The project that a change makes, if it changes anything. -/
def FileEdit.result? (project : Project) : FileEdit → Option Project
  | .add path => project.addFile? path
  | .delete path => project.deleteFile? path

namespace Project

/-- The project after a change. -/
def edit (project : Project) (change : FileEdit) : Project :=
  (change.result? project).getD project

/-- The project after a run of changes. -/
def editAll (project : Project) (changes : List FileEdit) : Project :=
  changes.foldl edit project

/-- A change pushes one new file, drops all copies of a present one, or does nothing. -/
theorem edit_cases (project : Project) (change : FileEdit) :
    (∃ path, path ∉ project.files ∧ project.edit change = project.pushFile path) ∨
    (∃ path, path ∈ project.files ∧ project.edit change =
      { project with
        files := project.files.filter (· != path)
        filesByGroup := dropFromGroup project.filesByGroup path }) ∨
    project.edit change = project := by
  cases change with
  | add path =>
      by_cases h : path ∈ project.files
      · exact .inr (.inr (by simp [edit, FileEdit.result?, addFile?, h]))
      · exact .inl ⟨path, h, by simp [edit, FileEdit.result?, addFile?, h]⟩
  | delete path =>
      by_cases h : path ∈ project.files
      · exact .inr (.inl ⟨path, h, by simp [edit, FileEdit.result?, deleteFile?, h]⟩)
      · exact .inr (.inr (by simp [edit, FileEdit.result?, deleteFile?, h]))

/-- What one change preserves, a run of changes preserves. -/
theorem editAll_induction {motive : Project → Prop} {project : Project} (h : motive project)
    (step : ∀ p change, motive p → motive (p.edit change)) (changes : List FileEdit) :
    motive (project.editAll changes) := by
  induction changes generalizing project with
  | nil => exact h
  | cons change rest ih => exact ih (step project change h)

/-! ### The invariant -/

/-- The files of a group, in their order and with their repeats. -/
def filesIn (project : Project) (group : FileGroup) : List String :=
  project.files.filter (FileGroup.ofPath · = group)

/-- The files by group are the files, split into groups. -/
structure Grouped (project : Project) : Prop where
  /-- Under each group stand its files; a group that is not stored has none. -/
  getD_find? : ∀ group, (project.filesByGroup.find? group).getD [] = project.filesIn group
  /-- No group is stored without files. -/
  find?_ne_nil : ∀ group, project.filesByGroup.find? group ≠ some []

theorem mem_filesIn {project : Project} {group : FileGroup} {path : String} :
    path ∈ project.filesIn group ↔ path ∈ project.files ∧ FileGroup.ofPath path = group := by
  simp [filesIn]

theorem filesIn_pushFile (project : Project) (path : String) (group : FileGroup) :
    (project.pushFile path).filesIn group
      = project.filesIn group ++ if FileGroup.ofPath path = group then [path] else [] := by
  by_cases h : FileGroup.ofPath path = group
  · simp [filesIn, pushFile, h]
  · simp [filesIn, pushFile, h]

theorem find?_pushFile (project : Project) (path : String) (group : FileGroup) :
    (project.pushFile path).filesByGroup.find? group
      = if group = FileGroup.ofPath path then
          some ((project.filesByGroup.find? group).getD [] ++ [path])
        else project.filesByGroup.find? group := by
  by_cases h : group = FileGroup.ofPath path
  · rw [if_pos h, pushFile, SortedMap.find?_insert, if_pos h, h]
  · rw [if_neg h, pushFile, SortedMap.find?_insert, if_neg h]

theorem Grouped.pushFile {project : Project} (h : project.Grouped) (path : String) :
    (project.pushFile path).Grouped where
  getD_find? group := by
    rw [find?_pushFile, filesIn_pushFile]
    by_cases hgroup : group = FileGroup.ofPath path
    · rw [if_pos hgroup, if_pos hgroup.symm, Option.getD_some, h.getD_find?]
    · rw [if_neg hgroup, if_neg (Ne.symm hgroup), h.getD_find?, List.append_nil]
  find?_ne_nil group := by
    rw [find?_pushFile]
    by_cases hgroup : group = FileGroup.ofPath path
    · rw [if_pos hgroup]
      simp
    · rw [if_neg hgroup]
      exact h.find?_ne_nil group

/-- Dropping a path leaves its group unstored, erases it, or stores what is kept of it. -/
theorem dropFromGroup_cases (groups : SortedMap FileGroup (List String)) (path : String) :
    (groups.find? (FileGroup.ofPath path) = none ∧ dropFromGroup groups path = groups) ∨
    ∃ listed, groups.find? (FileGroup.ofPath path) = some listed ∧
      (listed.filter (· != path) = [] ∧
          dropFromGroup groups path = groups.erase (FileGroup.ofPath path) ∨
        listed.filter (· != path) ≠ [] ∧
          dropFromGroup groups path
            = groups.insert (FileGroup.ofPath path) (listed.filter (· != path))) := by
  unfold dropFromGroup
  cases hfind : groups.find? (FileGroup.ofPath path) with
  | none => exact .inl ⟨rfl, by simp only [hfind]⟩
  | some listed =>
      refine .inr ⟨listed, rfl, ?_⟩
      cases hkept : listed.filter (· != path) with
      | nil => exact .inl ⟨rfl, by simp only [hfind, hkept]⟩
      | cons p ps => exact .inr ⟨List.cons_ne_nil p ps, by simp only [hfind, hkept]⟩

/-- Dropping a path touches its own group only, and drops the group with its last file. -/
theorem find?_dropFromGroup (groups : SortedMap FileGroup (List String)) (path : String)
    (group : FileGroup) :
    (dropFromGroup groups path).find? group
      = if group = FileGroup.ofPath path then
          (groups.find? group).bind fun listed =>
            if listed.filter (· != path) = [] then none else some (listed.filter (· != path))
        else groups.find? group := by
  rcases dropFromGroup_cases groups path with
    ⟨hnone, heq⟩ | ⟨listed, hsome, ⟨hkept, heq⟩ | ⟨hkept, heq⟩⟩
  · rw [heq]
    by_cases h : group = FileGroup.ofPath path
    · rw [if_pos h, h, hnone, Option.bind_none]
    · rw [if_neg h]
  · rw [heq, SortedMap.find?_erase]
    by_cases h : group = FileGroup.ofPath path
    · rw [if_pos h, if_pos h, h, hsome, Option.bind_some, if_pos hkept]
    · rw [if_neg h, if_neg h]
  · rw [heq, SortedMap.find?_insert]
    by_cases h : group = FileGroup.ofPath path
    · rw [if_pos h, if_pos h, h, hsome, Option.bind_some, if_neg hkept]
    · rw [if_neg h, if_neg h]

theorem Grouped.dropFile {project : Project} (h : project.Grouped) (path : String) :
    ({ project with
      files := project.files.filter (· != path)
      filesByGroup := dropFromGroup project.filesByGroup path } : Project).Grouped where
  getD_find? group := by
    have hfiles : (project.files.filter (· != path)).filter (FileGroup.ofPath · = group)
        = (project.filesIn group).filter (· != path) := by
      rw [filesIn, List.filter_filter, List.filter_filter]
      simp only [Bool.and_comm]
    rw [filesIn, hfiles, find?_dropFromGroup]
    by_cases hgroup : group = FileGroup.ofPath path
    · rw [if_pos hgroup, ← h.getD_find?]
      cases project.filesByGroup.find? group with
      | none => rfl
      | some listed =>
          rw [Option.bind_some, Option.getD_some]
          by_cases hkept : listed.filter (· != path) = []
          · rw [if_pos hkept, hkept, Option.getD_none]
          · rw [if_neg hkept, Option.getD_some]
    · -- a file of another group is never the dropped one
      have hkeep : (project.filesIn group).filter (· != path) = project.filesIn group := by
        refine List.filter_eq_self.2 fun p hp => ?_
        have hpath : p ≠ path := fun e => hgroup (e ▸ (mem_filesIn.1 hp).2).symm
        simpa using hpath
      rw [if_neg hgroup, h.getD_find?, hkeep]
  find?_ne_nil group := by
    rw [find?_dropFromGroup]
    by_cases hgroup : group = FileGroup.ofPath path
    · rw [if_pos hgroup]
      cases project.filesByGroup.find? group with
      | none => exact nofun
      | some listed =>
          rw [Option.bind_some]
          by_cases hkept : listed.filter (· != path) = []
          · rw [if_pos hkept]
            exact nofun
          · rw [if_neg hkept]
            exact fun e => hkept (Option.some.inj e)
    · rw [if_neg hgroup]
      exact h.find?_ne_nil group

theorem Grouped.edit {project : Project} (h : project.Grouped) (change : FileEdit) :
    (project.edit change).Grouped := by
  rcases edit_cases project change with ⟨path, -, heq⟩ | ⟨path, -, heq⟩ | heq
  · rw [heq]
    exact h.pushFile path
  · rw [heq]
    exact h.dropFile path
  · rw [heq]
    exact h

theorem Grouped.editAll {project : Project} (h : project.Grouped) (changes : List FileEdit) :
    (project.editAll changes).Grouped :=
  editAll_induction h (fun _ change hp => hp.edit change) changes

theorem grouped_foldl_pushFile {project : Project} (h : project.Grouped) (files : List String) :
    (files.foldl Project.pushFile project).Grouped := by
  induction files generalizing project with
  | nil => exact h
  | cons path rest ih => exact ih (h.pushFile path)

theorem grouped_ofSettings (name fullName : String) (settings : PerConfiguration TargetSettings)
    (isReadOnly : Bool) : (ofSettings name fullName settings isReadOnly).Grouped where
  getD_find? _ := rfl
  find?_ne_nil _ := nofun

theorem grouped_ofTarget (name fullName : String) (files : List String)
    (settings : PerConfiguration TargetSettings) (isReadOnly : Bool) :
    (ofTarget name fullName files settings isReadOnly).Grouped :=
  grouped_foldl_pushFile (grouped_ofSettings name fullName settings isReadOnly) files

/-! ### What the invariant says -/

theorem Grouped.find?_eq_some_iff {project : Project} (h : project.Grouped) {group : FileGroup}
    {listed : List String} :
    project.filesByGroup.find? group = some listed
      ↔ listed = project.filesIn group ∧ listed ≠ [] := by
  rw [← h.getD_find? group]
  have hne := h.find?_ne_nil group
  cases hfind : project.filesByGroup.find? group with
  | none => simp
  | some stored =>
      rw [hfind, Ne, Option.some.injEq] at hne
      rw [Option.some.injEq, Option.getD_some]
      constructor
      · rintro rfl
        exact ⟨rfl, hne⟩
      · exact fun e => e.1.symm

theorem Grouped.mem_keys_iff {project : Project} (h : project.Grouped) {group : FileGroup} :
    group ∈ project.filesByGroup.keys ↔ ∃ path ∈ project.files, FileGroup.ofPath path = group := by
  rw [SortedMap.mem_keys_iff, Option.isSome_iff_exists]
  constructor
  · rintro ⟨listed, hlisted⟩
    obtain ⟨rfl, hne⟩ := h.find?_eq_some_iff.1 hlisted
    obtain ⟨path, hpath⟩ := List.exists_mem_of_ne_nil _ hne
    exact ⟨path, mem_filesIn.1 hpath⟩
  · rintro ⟨path, hpath⟩
    exact ⟨_, h.find?_eq_some_iff.2 ⟨rfl, List.ne_nil_of_mem (mem_filesIn.2 hpath)⟩⟩

/-- Both lists are in strictly increasing order and have the same groups. -/
theorem Grouped.keys_eq {project : Project} (h : project.Grouped) :
    project.filesByGroup.keys
      = FileGroup.all.filter fun group =>
          ∃ path ∈ project.files, FileGroup.ofPath path = group := by
  have hall : FileGroup.all.Pairwise fun a b => compare a b = .lt := by decide
  have hmem : ∀ group, group ∈ FileGroup.all := fun group => by cases group <;> decide
  refine SortedMap.eq_of_pairwise_lt (SortedMap.pairwise_keys _) (hall.filter _) fun group => ?_
  rw [h.mem_keys_iff, List.mem_filter, decide_eq_true_iff]
  exact ⟨fun hp => ⟨hmem group, hp⟩, fun hp => hp.2⟩

theorem map_fst_groups (project : Project) :
    project.groups.map (·.1) = project.filesByGroup.keys := by
  rw [groups, SortedMap.keys, List.map_map]
  rfl

theorem pairwise_mergeSort_le (files : List String) : files.mergeSort.Pairwise (· ≤ ·) := by
  have h := @List.pairwise_mergeSort String (fun a b => decide (a ≤ b))
    (fun a b c hab hbc => decide_eq_true (String.le_trans (of_decide_eq_true hab)
      (of_decide_eq_true hbc)))
    (fun a b => by simpa using String.le_total a b) files
  exact h.imp fun hab => of_decide_eq_true hab

/-- A shown group lists the files of the group in increasing order. -/
theorem Grouped.of_mem_groups {project : Project} (h : project.Grouped)
    {shown : FileGroup × List String} (hshown : shown ∈ project.groups) :
    shown.2.Perm (project.filesIn shown.1) ∧ shown.2.Pairwise (· ≤ ·) := by
  obtain ⟨⟨group, listed⟩, hentry, rfl⟩ := List.mem_map.1 hshown
  obtain ⟨rfl, -⟩ := h.find?_eq_some_iff.1 (SortedMap.mem_toList_iff.1 hentry)
  exact ⟨List.mergeSort_perm _ _, pairwise_mergeSort_le _⟩

/-- After any run of changes the files by group are the files split by `FileGroup.ofPath`, without
empty groups, and the shown groups are those that occur, in their order, each with its files
sorted. -/
theorem filesByGroup_editAll_ofTarget (name fullName : String) (files : List String)
    (settings : PerConfiguration TargetSettings) (isReadOnly : Bool) (changes : List FileEdit) :
    let project := (ofTarget name fullName files settings isReadOnly).editAll changes
    (∀ group listed, project.filesByGroup.find? group = some listed
      ↔ listed = project.filesIn group ∧ listed ≠ []) ∧
    (∀ group, group ∈ project.filesByGroup.keys
      ↔ ∃ path ∈ project.files, FileGroup.ofPath path = group) ∧
    (project.groups.map (·.1) = FileGroup.all.filter fun group =>
      ∃ path ∈ project.files, FileGroup.ofPath path = group) ∧
    ∀ shown ∈ project.groups,
      shown.2.Perm (project.filesIn shown.1) ∧ shown.2.Pairwise (· ≤ ·) := by
  intro project
  have h : project.Grouped :=
    (grouped_ofTarget name fullName files settings isReadOnly).editAll changes
  refine ⟨fun group listed => h.find?_eq_some_iff, fun group => h.mem_keys_iff, ?_,
    fun shown hshown => h.of_mem_groups hshown⟩
  rw [map_fst_groups, h.keys_eq]

end Project

end BuildAtlas
