import BuildAtlas.Proofs.Project.Settings
import BuildAtlas.Proofs.VisualStudio.Noninterference
import BuildAtlas.Proofs.Workspace.Sum

/-!
# BuildAtlas.Proofs.Workspace.Selectable

The projects that have settings in a configuration that can be selected.

Any configuration that some solution reports can be selected, while a project has settings in the
configurations of its own solution only. `ConfiguredAs` says that a project has settings and a build
command in exactly these; a solution's projects are configured as the solution reports
(`configuredAs_toProject`). So every name that can be selected has settings in the projects of the
solutions that report it, and it has settings in all projects where all solutions agree. A project
of a solution that does not report the selected name has nothing to build there.
-/

namespace BuildAtlas

variable {settings : ImportSettings} {tree : FileTree} {root path : String}

/-! ### Projects of one solution -/

/-- The project has settings and a build command in these configurations and in no other. -/
structure Project.ConfiguredAs (project : Project) (configurations : List String) : Prop where
  /-- All maps have one list of keys, and a name is a key if it is among the configurations. -/
  keyedBy : ∃ names, project.KeyedBy names ∧ ∀ name, name ∈ names ↔ name ∈ configurations
  command_ne_empty_iff : ∀ name, (project.buildTask name).command ≠ "" ↔ name ∈ configurations
  canBuild_iff : project.canBuild = true ↔ configurations ≠ []

namespace VisualStudio

/-- Both ways to build a target name their options behind hyphens. -/
theorem hyphen_mem_buildCommand (msbuild : String) (solution : Solution)
    (target configuration : String) :
    '-' ∈ (buildCommand msbuild solution target configuration).toList := by
  simp only [buildCommand]
  split <;> simp

theorem command_buildTask_toProject (settings : ImportSettings) (solution : Solution)
    (document : ProjectDocument) (name : String) :
    ((toProject settings solution document).buildTask name).command
      = if name ∈ solution.configurations then
          buildCommand settings.msbuild solution document.project.name name
        else "" := by
  simp only [toProject, Project.buildTask, Project.active, Project.valueAt,
    Project.ofTarget_buildCommand, SortedMap.find?_mapValues, SortedMap.find?_ofList_names]
  by_cases h : name ∈ solution.configurations
  · simp [h, targetSettings]
  · simp [h]

theorem canBuild_toProject_iff (settings : ImportSettings) (solution : Solution)
    (document : ProjectDocument) :
    (toProject settings solution document).canBuild = true ↔ solution.configurations ≠ [] := by
  rw [toProject, Project.canBuild_ofTarget_iff]
  simp only [SortedMap.find?_ofList_names, Option.ite_none_right_eq_some, Option.some.injEq]
  constructor
  · rintro ⟨name, -, ⟨hname, -⟩, -⟩
    exact List.ne_nil_of_mem hname
  · intro hne
    obtain ⟨name, hname⟩ := List.exists_mem_of_ne_nil _ hne
    exact ⟨name, _, ⟨hname, rfl⟩, '-', hyphen_mem_buildCommand .., by decide⟩

theorem configuredAs_toProject (settings : ImportSettings) (solution : Solution)
    (document : ProjectDocument) :
    (toProject settings solution document).ConfiguredAs solution.configurations where
  keyedBy := by
    obtain ⟨names, hmem, hkeyed⟩ := exists_keyedBy_toProject settings solution
    exact ⟨names, hkeyed document, hmem⟩
  command_ne_empty_iff name := by
    rw [command_buildTask_toProject]
    by_cases h : name ∈ solution.configurations
    · rw [if_pos h]
      refine iff_of_true (fun hempty => ?_) h
      have hhyphen := hyphen_mem_buildCommand settings.msbuild solution document.project.name name
      rw [hempty] at hhyphen
      simp at hhyphen
    · simp [h]
  canBuild_iff := canBuild_toProject_iff settings solution document

theorem configuredAs_of_mem_imported {solution : Solution} {documents : List ProjectDocument}
    {project : Project} (h : project ∈ (imported settings solution documents).projects) :
    project.ConfiguredAs (imported settings solution documents).configurations := by
  obtain ⟨document, -, rfl⟩ := List.mem_map.1 h
  exact configuredAs_toProject settings solution document

theorem configuredAs_of_load {found : Imported} {project : Project}
    (hload : load settings tree path = .ok found) (h : project ∈ found.projects) :
    project.ConfiguredAs found.configurations := by
  rcases Imported.ofDocument_cases hload with rfl | ⟨text, -, hread⟩
  · exact absurd h List.not_mem_nil
  · generalize Solution.parse path text = solution at hread
    obtain rfl := Except.ok.inj hread
    exact configuredAs_of_mem_imported h

end VisualStudio

namespace Workspace

/-! ### Projects of a scan -/

/-- What a solution contributes is configured as the solution reports. -/
theorem configuredAs_contribution {project : Project}
    (h : project ∈ (contribution settings tree .visualStudio path).projects) :
    project.ConfiguredAs (contribution settings tree .visualStudio path).configurations := by
  unfold contribution at h ⊢
  cases hload : SourceFormat.visualStudio.load settings tree path with
  | error e =>
      rw [hload] at h
      exact absurd h List.not_mem_nil
  | ok found =>
      rw [hload] at h
      exact VisualStudio.configuredAs_of_load hload h

/-- A selection changes the active configuration only, and it takes one that can be selected. -/
theorem eq_of_select {workspace selected : Workspace} {name : String}
    (h : workspace.select name = .ok selected) : name ∈ workspace.selection.available ∧
      selected = { workspace with selection := { workspace.selection with active := name } } := by
  rcases workspace.select_cases name with ⟨hmem, heq⟩ | ⟨-, heq⟩
  · exact ⟨hmem, Except.ok.inj (h.symm.trans heq)⟩
  · exact nomatch h.symm.trans heq

/-- Only solutions have configurations that can be selected. -/
theorem format_eq_of_mem_configurations {now : Time} {workspace : Workspace} {name : String}
    (hscan : scan settings tree root now = .ok workspace)
    (hname : name ∈ workspace.configurations) :
    workspace.format = some .visualStudio := by
  have hkeys := (consistent_of_scan hscan).keysFit
  have hne : workspace.configurations ≠ [] := List.ne_nil_of_mem hname
  unfold KeysFit at hkeys
  cases hformat : workspace.format with
  | none =>
      rw [hformat] at hkeys
      exact absurd hkeys.1 hne
  | some format =>
      rw [hformat] at hkeys
      cases format with
      | gn => exact absurd hkeys.1 hne
      | visualStudio => rfl
      | codeBlocks => exact absurd hkeys.1 hne

/-- A scan with configurations is the sum of the solutions. -/
theorem isSum_of_mem_configurations {now : Time} {workspace : Workspace} {name : String}
    (hscan : scan settings tree root now = .ok workspace)
    (hname : name ∈ workspace.configurations) :
    IsSum settings tree root .visualStudio (SourceFormat.visualStudio.discover tree root)
      workspace := by
  have hformat := format_eq_of_mem_configurations hscan hname
  rcases scan_cases hscan with rfl | ⟨format, hsum⟩
  · exact nomatch hformat
  · obtain rfl := Option.some.inj (hsum.format_eq.symm.trans hformat)
    exact hsum

/-- A name that can be selected is reported by some solution. It has settings and a build command
in the projects of every solution that reports it, so in all projects if the solutions agree, and
neither in the projects of the others. -/
theorem configuredAs_of_select {now : Time} {workspace selected : Workspace} {name : String}
    (hscan : scan settings tree root now = .ok workspace)
    (hselect : workspace.select name = .ok selected) :
    let solutions := SourceFormat.visualStudio.discover tree root
    let found := contribution settings tree .visualStudio
    selected.active = name ∧
    selected.projects = solutions.flatMap (fun path => (found path).projects) ∧
    (∃ path ∈ solutions, name ∈ (found path).configurations) ∧
    (∀ path ∈ solutions, ∀ p ∈ (found path).projects,
      p.ConfiguredAs (found path).configurations) ∧
    ((∀ path ∈ solutions, (found path).projects ≠ [] → name ∈ (found path).configurations) →
      ∀ p ∈ selected.projects, (∃ names, p.KeyedBy names ∧ name ∈ names) ∧
        (p.buildTask selected.active).command ≠ "") := by
  intro solutions found
  obtain ⟨hname, rfl⟩ := eq_of_select hselect
  rw [(consistent_of_scan hscan).available_eq] at hname
  have hsum := isSum_of_mem_configurations hscan hname
  refine ⟨rfl, hsum.projects_eq, ?_, fun path _ p hp => configuredAs_contribution hp,
    fun hall p hp => ?_⟩
  · exact List.mem_flatMap.1 ((hsum.configurations.mem_iff name).1 hname)
  · rw [hsum.projects_eq] at hp
    obtain ⟨path, hpath, hp⟩ := List.mem_flatMap.1 hp
    have hreported := hall path hpath (List.ne_nil_of_mem hp)
    have hconfigured := configuredAs_contribution hp
    obtain ⟨names, hkeyed, hmem⟩ := hconfigured.keyedBy
    exact ⟨⟨names, hkeyed, (hmem name).2 hreported⟩,
      (hconfigured.command_ne_empty_iff name).2 hreported⟩

/-- A tree with two solutions that share no configuration. Each lists one project. -/
def disagreeingSolutions : FileTree where
  files := [
    (["app.vcxproj"], "<Project/>".toUTF8),
    (["a.sln"],
      "Project() = app, app.vcxproj, A\nGlobalSection(SolutionConfigurationPlatforms)\nD".toUTF8),
    (["lib.vcxproj"], "<Project/>".toUTF8),
    (["b.sln"],
      "Project() = lib, lib.vcxproj, B\nGlobalSection(SolutionConfigurationPlatforms)\nR".toUTF8)]

theorem scan_disagreeingSolutions :
    ∃ workspace p q, scan {} disagreeingSolutions "." ⟨1⟩ = .ok workspace ∧
      "R" ∈ workspace.selection.available ∧ workspace.projects = [p, q] ∧
      p ∈ (contribution {} disagreeingSolutions .visualStudio "./a.sln").projects ∧
      q ∈ (contribution {} disagreeingSolutions .visualStudio "./b.sln").projects ∧
      p.configurations = ["D"] ∧ q.configurations = ["R"] := by
  have hformat : SourceFormat.first? SourceFormat.all disagreeingSolutions "."
      = some .visualStudio := by
    decide +kernel
  have hdocuments : SourceFormat.visualStudio.discover disagreeingSolutions "."
      = ["./a.sln", "./b.sln"] := by
    decide +kernel
  have hcheck : ["./a.sln", "./b.sln"].map (fun path =>
      let found := contribution {} disagreeingSolutions .visualStudio path
      (found.configurations, found.projects.map (·.configurations)))
        = [(["D"], [["D"]]), (["R"], [["R"]])] := by
    decide +kernel
  simp only [List.map_cons, List.map_nil, List.cons.injEq, Prod.mk.injEq, and_true,
    List.map_eq_singleton_iff] at hcheck
  -- each solution contributes one project
  obtain ⟨⟨hfirst, p, hp, hpkeys⟩, hsecond, q, hq, hqkeys⟩ := hcheck
  obtain ⟨workspace, hscan, hsum⟩ :=
    exists_scan_eq_sum ⟨1⟩ (show disagreeingSolutions.hasDirectory "." = true by decide) hformat
  rw [hdocuments] at hsum
  refine ⟨workspace, p, q, hscan, ?_, ?_, ?_, ?_, hpkeys, hqkeys⟩
  · rw [(consistent_of_scan hscan).available_eq, hsum.configurations.mem_iff]
    simp [hfirst, hsecond]
  · simp [hsum.projects_eq, hp, hq]
  · rw [hp]
    exact List.mem_singleton_self p
  · rw [hq]
    exact List.mem_singleton_self q

/-- The configuration of the second solution can be selected, and then its project has something to
build. -/
theorem configuredAs_of_select_disagreeingSolutions :
    ∃ workspace selected, scan {} disagreeingSolutions "." ⟨1⟩ = .ok workspace ∧
      workspace.select "R" = .ok selected ∧ selected.active = "R" ∧
      (∃ path ∈ SourceFormat.visualStudio.discover disagreeingSolutions ".",
        "R" ∈ (contribution {} disagreeingSolutions .visualStudio path).configurations) ∧
      ∃ q ∈ selected.projects, q.configurations = ["R"] ∧
        q.ConfiguredAs
          (contribution {} disagreeingSolutions .visualStudio "./b.sln").configurations ∧
        (q.buildTask selected.active).command ≠ "" := by
  obtain ⟨workspace, p, q, hscan, havailable, hprojects, -, hq, -, hkeys⟩ :=
    scan_disagreeingSolutions
  have hselect := select_of_mem havailable
  obtain ⟨hactive, -, hreported, hconfigured, -⟩ := configuredAs_of_select hscan hselect
  have hone := hconfigured "./b.sln" (by decide +kernel) q hq
  obtain ⟨names, hkeyed, hmem⟩ := hone.keyedBy
  obtain rfl : names = ["R"] := hkeyed.kind.symm.trans hkeys
  refine ⟨workspace, _, hscan, hselect, hactive, hreported, q, by simp [hprojects], hkeys, hone, ?_⟩
  rw [hactive]
  exact (hone.command_ne_empty_iff "R").2 ((hmem "R").1 (List.mem_singleton_self _))

/-- The project of the first solution, which can be built, then has no settings and nothing to
build. -/
theorem command_eq_empty_disagreeingSolutions :
    ∃ workspace selected, scan {} disagreeingSolutions "." ⟨1⟩ = .ok workspace ∧
      workspace.select "R" = .ok selected ∧
      ∃ p ∈ selected.projects, p.canBuild = true ∧ p.KeyedBy ["D"] ∧
        (p.buildTask selected.active).command = "" := by
  obtain ⟨workspace, p, q, hscan, havailable, hprojects, hp, -, hkeys, -⟩ :=
    scan_disagreeingSolutions
  have hconfigured := configuredAs_contribution hp
  obtain ⟨names, hkeyed, hmem⟩ := hconfigured.keyedBy
  obtain rfl : names = ["D"] := hkeyed.kind.symm.trans hkeys
  refine ⟨workspace, _, hscan, select_of_mem havailable, p, by simp [hprojects], ?_, hkeyed, ?_⟩
  · exact hconfigured.canBuild_iff.2 (List.ne_nil_of_mem ((hmem "D").1 (List.mem_singleton_self _)))
  · have hnone : ¬ (p.buildTask "R").command ≠ "" := by
      rw [hconfigured.command_ne_empty_iff, ← hmem]
      decide
    exact not_not.1 hnone

end Workspace

end BuildAtlas
