import BuildAtlas.Proofs.Project.Files

/-!
# BuildAtlas.Proofs.Project.Configurations

The settings of a project by configuration.

`KeyedBy` says that all maps of a project's settings have the same keys, and `AgreeAt` that two
projects have the same settings in a configuration. A project that is built from one map of settings
has the keys of that map (`keyedBy_ofTarget`), its settings in a configuration depend on the entry
at that name only (`agreeAt_ofTarget`), and changes of files touch no settings (`KeyedBy.editAll`).
-/

namespace BuildAtlas.Project

/-! ### What files leave alone -/

/-- Pushing files changes nothing but the two stores of files. -/
theorem foldl_pushFile_eq (project : Project) (files : List String) :
    ∃ groups, files.foldl pushFile project =
      { project with files := project.files ++ files, filesByGroup := groups } := by
  induction files generalizing project with
  | nil => exact ⟨project.filesByGroup, by simp⟩
  | cons path rest ih =>
      obtain ⟨groups, h⟩ := ih (project.pushFile path)
      refine ⟨groups, ?_⟩
      rw [List.foldl_cons, h, pushFile, List.append_assoc]
      rfl

theorem ofTarget_eq (name fullName : String) (files : List String)
    (settings : PerConfiguration TargetSettings) (isReadOnly : Bool) :
    ∃ groups, ofTarget name fullName files settings isReadOnly =
      { ofSettings name fullName settings isReadOnly with
        files := files, filesByGroup := groups } := by
  obtain ⟨groups, h⟩ := foldl_pushFile_eq (ofSettings name fullName settings isReadOnly) files
  exact ⟨groups, h⟩

section OfTarget

variable (name fullName : String) (files : List String) (settings : PerConfiguration TargetSettings)
  (isReadOnly : Bool)

@[simp] theorem ofTarget_name :
    (ofTarget name fullName files settings isReadOnly).name = name := by
  obtain ⟨groups, h⟩ := ofTarget_eq name fullName files settings isReadOnly
  rw [h]
  rfl

@[simp] theorem ofTarget_fullName :
    (ofTarget name fullName files settings isReadOnly).fullName = fullName := by
  obtain ⟨groups, h⟩ := ofTarget_eq name fullName files settings isReadOnly
  rw [h]
  rfl

@[simp] theorem ofTarget_files :
    (ofTarget name fullName files settings isReadOnly).files = files := by
  obtain ⟨groups, h⟩ := ofTarget_eq name fullName files settings isReadOnly
  rw [h]

@[simp] theorem ofTarget_isReadOnly :
    (ofTarget name fullName files settings isReadOnly).isReadOnly = isReadOnly := by
  obtain ⟨groups, h⟩ := ofTarget_eq name fullName files settings isReadOnly
  rw [h]
  rfl

@[simp] theorem ofTarget_buildCommand :
    (ofTarget name fullName files settings isReadOnly).buildCommand
      = settings.mapValues (·.buildCommand) := by
  obtain ⟨groups, h⟩ := ofTarget_eq name fullName files settings isReadOnly
  rw [h]
  rfl

end OfTarget

/-- A change of files changes nothing but the two stores of files. -/
theorem edit_eq (project : Project) (change : FileEdit) :
    ∃ files groups, project.edit change =
      { project with files := files, filesByGroup := groups } := by
  rcases edit_cases project change with ⟨path, -, h⟩ | ⟨path, -, h⟩ | h
  · exact ⟨_, _, h⟩
  · exact ⟨_, _, h⟩
  · exact ⟨project.files, project.filesByGroup, h⟩

theorem edit_fullName (project : Project) (change : FileEdit) :
    (project.edit change).fullName = project.fullName := by
  obtain ⟨files, groups, h⟩ := edit_eq project change
  rw [h]

/-! ### Keys -/

/-- All maps of the project's settings have these keys. -/
structure KeyedBy (project : Project) (names : List String) : Prop where
  rootDir : project.rootDir.keys = names
  binaryPath : project.binaryPath.keys = names
  kind : project.kind.keys = names
  defines : project.defines.keys = names
  includeDirs : project.includeDirs.keys = names
  compileFlags : project.compileFlags.keys = names
  buildCommand : project.buildCommand.keys = names
  cleanCommand : project.cleanCommand.keys = names
  cStandard : project.cStandard.keys = names
  cppStandard : project.cppStandard.keys = names

theorem keyedBy_ofSettings (name fullName : String) (settings : PerConfiguration TargetSettings)
    (isReadOnly : Bool) : (ofSettings name fullName settings isReadOnly).KeyedBy settings.keys := by
  constructor <;> exact SortedMap.keys_mapValues _ _

theorem KeyedBy.setFiles {project : Project} {names : List String} (h : project.KeyedBy names)
    (files : List String) (groups : SortedMap FileGroup (List String)) :
    ({ project with files := files, filesByGroup := groups } : Project).KeyedBy names :=
  ⟨h.rootDir, h.binaryPath, h.kind, h.defines, h.includeDirs, h.compileFlags, h.buildCommand,
    h.cleanCommand, h.cStandard, h.cppStandard⟩

theorem keyedBy_ofTarget (name fullName : String) (files : List String)
    (settings : PerConfiguration TargetSettings) (isReadOnly : Bool) :
    (ofTarget name fullName files settings isReadOnly).KeyedBy settings.keys := by
  obtain ⟨groups, h⟩ := ofTarget_eq name fullName files settings isReadOnly
  rw [h]
  exact (keyedBy_ofSettings name fullName settings isReadOnly).setFiles files groups

theorem KeyedBy.edit {project : Project} {names : List String} (h : project.KeyedBy names)
    (change : FileEdit) : (project.edit change).KeyedBy names := by
  obtain ⟨files, groups, heq⟩ := edit_eq project change
  rw [heq]
  exact h.setFiles files groups

theorem KeyedBy.editAll {project : Project} {names : List String} (h : project.KeyedBy names)
    (changes : List FileEdit) : (project.editAll changes).KeyedBy names :=
  editAll_induction (motive := (·.KeyedBy names)) h (fun _ change hp => hp.edit change) changes

/-! ### Settings in one configuration -/

/-- Two projects have the same settings in a configuration. -/
structure AgreeAt (configuration : String) (p q : Project) : Prop where
  rootDir : p.rootDir.find? configuration = q.rootDir.find? configuration
  binaryPath : p.binaryPath.find? configuration = q.binaryPath.find? configuration
  kind : p.kind.find? configuration = q.kind.find? configuration
  defines : p.defines.find? configuration = q.defines.find? configuration
  includeDirs : p.includeDirs.find? configuration = q.includeDirs.find? configuration
  compileFlags : p.compileFlags.find? configuration = q.compileFlags.find? configuration
  buildCommand : p.buildCommand.find? configuration = q.buildCommand.find? configuration
  cleanCommand : p.cleanCommand.find? configuration = q.cleanCommand.find? configuration
  cStandard : p.cStandard.find? configuration = q.cStandard.find? configuration
  cppStandard : p.cppStandard.find? configuration = q.cppStandard.find? configuration

/-- The settings in a configuration depend on the entry at its name only. -/
theorem agreeAt_ofTarget {settings settings' : PerConfiguration TargetSettings}
    {configuration : String} (h : settings.find? configuration = settings'.find? configuration)
    (name name' fullName fullName' : String) (files files' : List String)
    (isReadOnly isReadOnly' : Bool) :
    AgreeAt configuration (ofTarget name fullName files settings isReadOnly)
      (ofTarget name' fullName' files' settings' isReadOnly') := by
  obtain ⟨groups, heq⟩ := ofTarget_eq name fullName files settings isReadOnly
  obtain ⟨groups', heq'⟩ := ofTarget_eq name' fullName' files' settings' isReadOnly'
  rw [heq, heq']
  constructor <;> simp only [ofSettings, SortedMap.find?_mapValues, h]

end BuildAtlas.Project
