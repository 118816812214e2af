import BuildAtlas.Proofs.Project.Configurations

/-!
# BuildAtlas.Proofs.Project.Settings

What a project keeps of the settings that it was built from.

`StoresAt` says that the maps of a project hold the settings of one configuration, with the macros
and include directories that its compiler flags name after those given. It holds at every key of
the settings (`storesAt_ofSettings`), files have no part in it (`StoresAt.setFiles`), and so it is
true of every project that a run of changes reaches. Whether a project can be built is the one thing
that depends on all configurations (`canBuild_ofSettings_iff`).
-/

namespace BuildAtlas.Project

/-! ### One configuration -/

/-- The maps of the project hold these settings for a configuration. -/
structure StoresAt (project : Project) (configuration : String) (settings : TargetSettings) :
    Prop where
  rootDir : project.rootDir.find? configuration = some settings.rootDir
  binaryPath : project.binaryPath.find? configuration = some settings.binaryPath
  kind : project.kind.find? configuration = some settings.kind
  /-- First the macros that are given, then those that the flags define. -/
  defines : project.defines.find? configuration
    = some (settings.defines ++ (CompileFlags.parse settings.compileFlags).defines)
  /-- First the directories that are given, then those that the flags name. -/
  includeDirs : project.includeDirs.find? configuration
    = some (settings.includeDirs ++ (CompileFlags.parse settings.compileFlags).includeDirs)
  compileFlags : project.compileFlags.find? configuration = some settings.compileFlags
  buildCommand : project.buildCommand.find? configuration = some settings.buildCommand
  cleanCommand : project.cleanCommand.find? configuration = some settings.cleanCommand
  cStandard : project.cStandard.find? configuration
    = some (CompileFlags.parse settings.compileFlags).cStandard
  cppStandard : project.cppStandard.find? configuration
    = some (CompileFlags.parse settings.compileFlags).cppStandard

theorem storesAt_ofSettings {settings : PerConfiguration TargetSettings} {configuration : String}
    {found : TargetSettings} (h : settings.find? configuration = some found)
    (name fullName : String) (isReadOnly : Bool) :
    (ofSettings name fullName settings isReadOnly).StoresAt configuration found := by
  constructor <;> simp only [ofSettings, SortedMap.find?_mapValues, h, Option.map_some]

theorem StoresAt.setFiles {project : Project} {configuration : String} {settings : TargetSettings}
    (h : project.StoresAt configuration settings) (files : List String)
    (groups : SortedMap FileGroup (List String)) :
    ({ project with files := files, filesByGroup := groups } : Project).StoresAt configuration
      settings :=
  ⟨h.rootDir, h.binaryPath, h.kind, h.defines, h.includeDirs, h.compileFlags, h.buildCommand,
    h.cleanCommand, h.cStandard, h.cppStandard⟩

/-! ### Runs of changes -/

/-- A run of changes changes nothing but the two stores of files. -/
theorem editAll_eq (project : Project) (changes : List FileEdit) :
    ∃ files groups, project.editAll changes =
      { project with files := files, filesByGroup := groups } := by
  refine editAll_induction (motive := fun p => ∃ files groups,
    p = { project with files := files, filesByGroup := groups })
    ⟨project.files, project.filesByGroup, rfl⟩ (fun p change hp => ?_) changes
  obtain ⟨files, groups, rfl⟩ := hp
  exact edit_eq _ change

/-- A project that a run of changes reaches is the one without files, but for its files. -/
theorem editAll_ofTarget_eq (name fullName : String) (files : List String)
    (settings : PerConfiguration TargetSettings) (isReadOnly : Bool) (changes : List FileEdit) :
    ∃ files' groups, (ofTarget name fullName files settings isReadOnly).editAll changes =
      { ofSettings name fullName settings isReadOnly with
        files := files', filesByGroup := groups } := by
  obtain ⟨groups, htarget⟩ := ofTarget_eq name fullName files settings isReadOnly
  obtain ⟨files', groups', hedit⟩ :=
    editAll_eq (ofTarget name fullName files settings isReadOnly) changes
  exact ⟨files', groups', by rw [hedit, htarget]⟩

theorem AgreeAt.editAll {configuration : String} {p q : Project} (h : AgreeAt configuration p q)
    (changes changes' : List FileEdit) :
    AgreeAt configuration (p.editAll changes) (q.editAll changes') := by
  obtain ⟨files, groups, hp⟩ := editAll_eq p changes
  obtain ⟨files', groups', hq⟩ := editAll_eq q changes'
  rw [hp, hq]
  exact ⟨h.rootDir, h.binaryPath, h.kind, h.defines, h.includeDirs, h.compileFlags,
    h.buildCommand, h.cleanCommand, h.cStandard, h.cppStandard⟩

/-! ### All configurations -/

theorem isBlankText_eq_false_iff {text : String} :
    Text.isBlankText text = false ↔ ∃ c ∈ text.toList, Text.isBlank c = false := by
  simp [Text.isBlankText]

/-- A project can be built if the command of some configuration is not blank. -/
theorem canBuild_ofSettings_iff (name fullName : String)
    (settings : PerConfiguration TargetSettings) (isReadOnly : Bool) :
    (ofSettings name fullName settings isReadOnly).canBuild = true ↔
      ∃ configuration found, settings.find? configuration = some found ∧
        ∃ c ∈ found.buildCommand.toList, Text.isBlank c = false := by
  simp only [ofSettings, SortedMap.values, List.any_map, List.any_eq_true, Function.comp_apply,
    Bool.not_eq_true', isBlankText_eq_false_iff]
  constructor
  · rintro ⟨⟨configuration, found⟩, hentry, hcommand⟩
    exact ⟨configuration, found, SortedMap.mem_toList_iff.1 hentry, hcommand⟩
  · rintro ⟨configuration, found, hfind, hcommand⟩
    exact ⟨(configuration, found), SortedMap.mem_toList_iff.2 hfind, hcommand⟩

theorem canBuild_ofTarget_iff (name fullName : String) (files : List String)
    (settings : PerConfiguration TargetSettings) (isReadOnly : Bool) :
    (ofTarget name fullName files settings isReadOnly).canBuild = true ↔
      ∃ configuration found, settings.find? configuration = some found ∧
        ∃ c ∈ found.buildCommand.toList, Text.isBlank c = false := by
  obtain ⟨groups, h⟩ := ofTarget_eq name fullName files settings isReadOnly
  rw [h]
  exact canBuild_ofSettings_iff name fullName settings isReadOnly

/-- After any run of changes all maps of a project have the keys of the settings that it was built
from. An entry is what the settings at its key say, so other settings for one configuration change
no entry of another. The project can be built exactly if some build command is not blank. -/
theorem settings_editAll_ofTarget (name fullName : String) (files : List String)
    (settings : PerConfiguration TargetSettings) (isReadOnly : Bool) (changes : List FileEdit) :
    let project := (ofTarget name fullName files settings isReadOnly).editAll changes
    project.KeyedBy settings.keys ∧
    (∀ configuration found, settings.find? configuration = some found →
      project.StoresAt configuration found) ∧
    (∀ configuration replacement other, other ≠ configuration →
      AgreeAt other project
        ((ofTarget name fullName files (settings.insert configuration replacement)
          isReadOnly).editAll changes)) ∧
    (project.canBuild = true ↔
      ∃ configuration found, settings.find? configuration = some found ∧
        ∃ c ∈ found.buildCommand.toList, Text.isBlank c = false) := by
  intro project
  obtain ⟨files', groups, heq⟩ :=
    editAll_ofTarget_eq name fullName files settings isReadOnly changes
  have hproject : project = _ := heq
  refine ⟨?_, fun configuration found hfound => ?_,
    fun configuration replacement other hother => ?_, ?_⟩
  · exact (keyedBy_ofTarget name fullName files settings isReadOnly).editAll changes
  · rw [hproject]
    exact (storesAt_ofSettings hfound name fullName isReadOnly).setFiles files' groups
  · have hfind :
        settings.find? other = (settings.insert configuration replacement).find? other := by
      rw [SortedMap.find?_insert, if_neg hother]
    exact (agreeAt_ofTarget hfind ..).editAll changes changes
  · rw [hproject]
    exact canBuild_ofSettings_iff name fullName settings isReadOnly

end BuildAtlas.Project
