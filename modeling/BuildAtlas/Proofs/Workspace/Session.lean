import BuildAtlas.Proofs.FirstOccurrences
import BuildAtlas.Proofs.Imported
import BuildAtlas.Workspace.Scan

/-!
# BuildAtlas.Proofs.Workspace.Session

A workspace stays consistent through a whole session.

A session begins with a scan and goes on with selections, changes of files and further scans, in any
order. `Consistent` ties the selection and the keys of the projects to the configurations of the
workspace. A scan gives a consistent workspace, since what a document describes fits its format
(`consistent_ofImported`); each action keeps it so (`Consistent.step`), and with that every
workspace that a session reaches is consistent (`Consistent.run`).
-/

namespace BuildAtlas

namespace Workspace

/-! ### Sessions -/

/-- One thing that a session does. -/
inductive Action
  /-- Selects a configuration. -/
  | select (name : String)
  /-- Changes the files of the first project with a full name. -/
  | edit (fullName : String) (change : FileEdit)
  /-- Changes the files of the project at a position. -/
  | editAt (position : Nat) (change : FileEdit)
  /-- Scans a root, in a tree that may have changed, and takes over what is found. -/
  | rescan (settings : ImportSettings) (tree : FileTree) (root : String) (now : Time)

/-- The workspace after an action. What fails changes nothing. -/
def step (workspace : Workspace) : Action → Workspace
  | .select name =>
    match workspace.select name with
    | .ok selected => selected
    | .error _ => workspace
  | .edit fullName change =>
    match workspace.project? fullName with
    | some project => workspace.setProject (project.edit change)
    | none => workspace
  | .editAt position change =>
    { workspace with projects := workspace.projects.modify position (·.edit change) }
  | .rescan settings tree root now =>
    match scan settings tree root now with
    | .ok newer => workspace.replaceWith newer
    | .error _ => workspace

/-- The workspace after a run of actions. -/
def run (workspace : Workspace) (actions : List Action) : Workspace :=
  actions.foldl step workspace

/-! ### The invariant -/

/-- The keys of the projects' maps are those that the format of the workspace knows. -/
def KeysFit (workspace : Workspace) : Prop :=
  match workspace.format with
  | some .visualStudio =>
    ∀ p ∈ workspace.projects, ∃ names, p.KeyedBy names ∧ names ⊆ workspace.configurations
  | some .gn | some .codeBlocks =>
    workspace.configurations = [] ∧ ∀ p ∈ workspace.projects, p.KeyedBy [""]
  | none => workspace.configurations = [] ∧ workspace.projects = []

/-- The selection and the projects go with the configurations of the workspace. -/
structure Consistent (workspace : Workspace) : Prop where
  available_eq : workspace.selection.available = workspace.configurations
  nodup : workspace.configurations.Nodup
  empty_not_mem : "" ∉ workspace.configurations
  active_mem : workspace.active ∈ workspace.configurations ∨
    workspace.active = "" ∧ workspace.configurations = []
  keysFit : workspace.KeysFit

/-- A workspace in which the first configuration is active is consistent if its names and keys
are. -/
theorem consistent_ofProjects {root : String} {format : Option SourceFormat}
    {projects : List Project} {configurations : List String} {now : Time}
    (hnodup : configurations.Nodup) (hempty : "" ∉ configurations)
    (hkeys : (ofProjects root format projects configurations now).KeysFit) :
    (ofProjects root format projects configurations now).Consistent where
  available_eq := rfl
  nodup := hnodup
  empty_not_mem := hempty
  active_mem := by
    cases configurations with
    | nil => exact .inr ⟨rfl, rfl⟩
    | cons name rest => exact .inl (List.mem_cons_self ..)
  keysFit := hkeys

/-! ### Scans -/

theorem consistent_ofImported {root : String} {format : SourceFormat} {found : List Imported}
    {now : Time} (h : ∀ one ∈ found, one.Fits format) :
    (ofImported root format found now).Consistent := by
  have hmem {name : String} : name ∈ (found.flatMap (·.configurations)).eraseDups
      ↔ ∃ one ∈ found, name ∈ one.configurations := by
    rw [List.mem_eraseDups, List.mem_flatMap]
  -- without configurations in any document there are none in the workspace
  have hnone (hall : ∀ one ∈ found, one.configurations = []) :
      (found.flatMap (·.configurations)).eraseDups = [] := by
    rw [List.eq_nil_iff_forall_not_mem]
    intro name hname
    obtain ⟨one, hone, hname⟩ := hmem.1 hname
    rw [hall one hone] at hname
    exact absurd hname List.not_mem_nil
  refine consistent_ofProjects (nodup_eraseDups _) (fun hname => ?_) ?_
  · obtain ⟨one, hone, hname⟩ := hmem.1 hname
    have hfits := h one hone
    cases format with
    | gn => exact absurd (hfits.1 ▸ hname) List.not_mem_nil
    | visualStudio => exact hfits.1 hname
    | codeBlocks => exact absurd (hfits.1 ▸ hname) List.not_mem_nil
  · cases format with
    | gn =>
        refine ⟨hnone fun one hone => (h one hone).1, fun p hp => ?_⟩
        obtain ⟨one, hone, hp⟩ := List.mem_flatMap.1 hp
        exact (h one hone).2 p hp
    | visualStudio =>
        intro p hp
        obtain ⟨one, hone, hp⟩ := List.mem_flatMap.1 hp
        obtain ⟨names, hkeyed, hsub⟩ := (h one hone).2 p hp
        exact ⟨names, hkeyed, fun name hname => hmem.2 ⟨one, hone, hsub hname⟩⟩
    | codeBlocks =>
        refine ⟨hnone fun one hone => (h one hone).1, fun p hp => ?_⟩
        obtain ⟨one, hone, hp⟩ := List.mem_flatMap.1 hp
        exact (h one hone).2 p hp

theorem fits_of_mem_importAll {settings : ImportSettings} {tree : FileTree} {format : SourceFormat}
    {documents : List String} {found : Imported}
    (h : found ∈ importAll settings tree format documents) : found.Fits format := by
  obtain ⟨path, -, hload⟩ := List.mem_filterMap.1 h
  cases hresult : format.load settings tree path with
  | error e => simp [hresult, Except.toOption] at hload
  | ok one =>
      obtain rfl : one = found := by simpa [hresult, Except.toOption] using hload
      exact SourceFormat.fits_of_load hresult

theorem consistent_of_scan {settings : ImportSettings} {tree : FileTree} {root : String}
    {now : Time} {workspace : Workspace} (h : scan settings tree root now = .ok workspace) :
    workspace.Consistent := by
  unfold scan at h
  by_cases hroot : tree.hasDirectory root = true
  · rw [if_pos hroot] at h
    cases hselect : SourceFormat.select? SourceFormat.all tree root with
    | none =>
        rw [hselect] at h
        obtain rfl := Except.ok.inj h
        exact consistent_ofProjects List.nodup_nil List.not_mem_nil ⟨rfl, rfl⟩
    | some selected =>
        obtain ⟨format, documents⟩ := selected
        rw [hselect] at h
        obtain rfl := Except.ok.inj h
        exact consistent_ofImported fun one hone => fits_of_mem_importAll hone
  · rw [if_neg hroot] at h
    exact nomatch h

/-! ### Actions -/

theorem select_of_mem {workspace : Workspace} {name : String}
    (h : name ∈ workspace.selection.available) :
    workspace.select name = .ok
      { workspace with selection := { workspace.selection with active := name } } := by
  rw [select, Selection.select, if_pos h]
  rfl

theorem select_of_not_mem {workspace : Workspace} {name : String}
    (h : name ∉ workspace.selection.available) :
    workspace.select name = .error (.unknownConfiguration name) := by
  rw [select, Selection.select, if_neg h]
  rfl

/-- A selection among the available names succeeds, any other one fails. -/
theorem select_cases (workspace : Workspace) (name : String) :
    (name ∈ workspace.selection.available ∧ workspace.select name = .ok
      { workspace with selection := { workspace.selection with active := name } }) ∨
    name ∉ workspace.selection.available ∧
      workspace.select name = .error (.unknownConfiguration name) := by
  by_cases h : name ∈ workspace.selection.available
  · exact .inl ⟨h, select_of_mem h⟩
  · exact .inr ⟨h, select_of_not_mem h⟩

theorem Consistent.setActive {workspace : Workspace} (h : workspace.Consistent) {name : String}
    (hname : name ∈ workspace.configurations) :
    ({ workspace with selection := { workspace.selection with active := name } } :
      Workspace).Consistent :=
  ⟨h.available_eq, h.nodup, h.empty_not_mem, .inl hname, h.keysFit⟩

/-- Projects may be exchanged for others with the same keys. -/
theorem Consistent.setProjects {workspace : Workspace} (h : workspace.Consistent)
    {projects : List Project}
    (hkeys : ∀ p ∈ projects, ∃ q ∈ workspace.projects, ∀ names, q.KeyedBy names → p.KeyedBy names) :
    ({ workspace with projects := projects } : Workspace).Consistent := by
  refine ⟨h.available_eq, h.nodup, h.empty_not_mem, h.active_mem, ?_⟩
  have hfit := h.keysFit
  unfold KeysFit at hfit ⊢
  revert hfit
  cases workspace.format with
  | none =>
      rintro ⟨hnone, hprojects⟩
      refine ⟨hnone, List.eq_nil_iff_forall_not_mem.2 fun p hp => ?_⟩
      obtain ⟨q, hq, -⟩ := hkeys p hp
      rw [hprojects] at hq
      exact absurd hq List.not_mem_nil
  | some format =>
      cases format with
      | gn =>
          rintro ⟨hnone, hkeyed⟩
          refine ⟨hnone, fun p hp => ?_⟩
          obtain ⟨q, hq, hpq⟩ := hkeys p hp
          exact hpq _ (hkeyed q hq)
      | visualStudio =>
          intro hkeyed p hp
          obtain ⟨q, hq, hpq⟩ := hkeys p hp
          obtain ⟨names, hnames, hsub⟩ := hkeyed q hq
          exact ⟨names, hpq names hnames, hsub⟩
      | codeBlocks =>
          rintro ⟨hnone, hkeyed⟩
          refine ⟨hnone, fun p hp => ?_⟩
          obtain ⟨q, hq, hpq⟩ := hkeys p hp
          exact hpq _ (hkeyed q hq)

theorem mem_setIn {project p : Project} {projects : List Project}
    (h : p ∈ setIn project projects) : p = project ∨ p ∈ projects := by
  induction projects with
  | nil => exact .inr h
  | cons q rest ih =>
      rw [setIn] at h
      by_cases hname : (q.fullName == project.fullName) = true
      · rw [if_pos hname] at h
        rcases List.mem_cons.1 h with rfl | h
        · exact .inl rfl
        · exact .inr (List.mem_cons_of_mem _ h)
      · rw [if_neg hname] at h
        rcases List.mem_cons.1 h with rfl | h
        · exact .inr (List.mem_cons_self ..)
        · exact (ih h).imp_right (List.mem_cons_of_mem _)

theorem mem_modify {α : Type} {f : α → α} {b : α} {position : Nat} {as : List α}
    (h : b ∈ as.modify position f) : b ∈ as ∨ ∃ a ∈ as, b = f a := by
  induction as generalizing position with
  | nil => simp at h
  | cons a rest ih =>
      cases position with
      | zero =>
          rw [List.modify_zero_cons] at h
          rcases List.mem_cons.1 h with rfl | h
          · exact .inr ⟨a, List.mem_cons_self .., rfl⟩
          · exact .inl (List.mem_cons_of_mem _ h)
      | succ position =>
          rw [List.modify_succ_cons] at h
          rcases List.mem_cons.1 h with rfl | h
          · exact .inl (List.mem_cons_self ..)
          · rcases ih h with h | ⟨c, hc, rfl⟩
            · exact .inl (List.mem_cons_of_mem _ h)
            · exact .inr ⟨c, List.mem_cons_of_mem _ hc, rfl⟩

theorem Consistent.replaceWith {newer : Workspace} (h : newer.Consistent) (older : Workspace) :
    (older.replaceWith newer).Consistent := by
  rw [Workspace.replaceWith]
  -- the old selection is taken over where the newer workspace has it
  by_cases hempty : older.active = ""
  · rw [if_pos hempty]
    exact h
  · rw [if_neg hempty]
    rcases select_cases newer older.active with ⟨hmem, heq⟩ | ⟨-, heq⟩
    · rw [heq]
      exact h.setActive (h.available_eq ▸ hmem)
    · rw [heq]
      exact h

theorem Consistent.step {workspace : Workspace} (h : workspace.Consistent) (action : Action) :
    (workspace.step action).Consistent := by
  cases action with
  | select name =>
      rw [Workspace.step]
      rcases select_cases workspace name with ⟨hmem, heq⟩ | ⟨-, heq⟩
      · rw [heq]
        exact h.setActive (h.available_eq ▸ hmem)
      · rw [heq]
        exact h
  | edit fullName change =>
      rw [Workspace.step]
      cases hfind : workspace.project? fullName with
      | none => exact h
      | some project =>
          -- every project is one from before, or the changed one
          refine h.setProjects fun p hp => ?_
          rcases mem_setIn hp with rfl | hp
          · exact ⟨project, List.mem_of_find?_eq_some hfind, fun _ hkeyed => hkeyed.edit change⟩
          · exact ⟨p, hp, fun _ hkeyed => hkeyed⟩
  | editAt position change =>
      refine h.setProjects fun p hp => ?_
      rcases mem_modify hp with hp | ⟨q, hq, rfl⟩
      · exact ⟨p, hp, fun _ hkeyed => hkeyed⟩
      · exact ⟨q, hq, fun _ hkeyed => hkeyed.edit change⟩
  | rescan settings tree root now =>
      rw [Workspace.step]
      cases hscan : scan settings tree root now with
      | error e => exact h
      | ok newer => exact (consistent_of_scan hscan).replaceWith workspace

theorem Consistent.run {workspace : Workspace} (h : workspace.Consistent)
    (actions : List Action) : (workspace.run actions).Consistent := by
  induction actions generalizing workspace with
  | nil => exact h
  | cons action rest ih => exact ih (h.step action)

/-- Every workspace that a session reaches is consistent. There a selection of a configuration
changes the active one only, and any other selection fails and changes nothing. -/
theorem consistent_run_of_scan {settings : ImportSettings} {tree : FileTree} {root : String}
    {now : Time} {start : Workspace} (hscan : scan settings tree root now = .ok start)
    (actions : List Action) :
    let workspace := start.run actions
    workspace.Consistent ∧ ∀ name,
      (name ∈ workspace.configurations → workspace.step (.select name) =
        { workspace with selection := { workspace.selection with active := name } }) ∧
      (name ∉ workspace.configurations →
        workspace.select name = .error (.unknownConfiguration name) ∧
          workspace.step (.select name) = workspace) := by
  intro workspace
  have h : workspace.Consistent := (consistent_of_scan hscan).run actions
  refine ⟨h, fun name => ⟨fun hmem => ?_, fun hmem => ?_⟩⟩
  · rw [step, select_of_mem (h.available_eq ▸ hmem)]
  · have herror := select_of_not_mem (h.available_eq ▸ hmem)
    refine ⟨herror, ?_⟩
    rw [step, herror]

/-- The workspace, found at another time. -/
def foundAt (workspace : Workspace) (now : Time) : Workspace :=
  { workspace with discoveredAt := now }

/-- What a scan finds does not depend on the time. -/
theorem scan_foundAt (settings : ImportSettings) (tree : FileTree) (root : String)
    (now later : Time) :
    scan settings tree root later = (scan settings tree root now).map (·.foundAt later) := by
  unfold scan
  split
  · cases SourceFormat.select? SourceFormat.all tree root with
    | none => rfl
    | some selected => rfl
  · rfl

/-- The workspace of a scan whose result passes a check. -/
theorem exists_scan_of_any {settings : ImportSettings} {tree : FileTree} {root : String}
    {now : Time} {check : Workspace → Bool}
    (h : (scan settings tree root now).toOption.any check = true) :
    ∃ workspace, scan settings tree root now = .ok workspace ∧ check workspace = true := by
  cases hscan : scan settings tree root now with
  | error e => simp [hscan, Except.toOption] at h
  | ok workspace => exact ⟨workspace, rfl, by simpa [hscan, Except.toOption] using h⟩

/-- A tree with one solution, which lists one project and these configurations. -/
def solutionTree (configurations : List String) : FileTree where
  files := [
    (["app.vcxproj"], "<Project/>".toUTF8),
    (["a.sln"], ("\n".intercalate ("Project() = app, app.vcxproj, A"
      :: "GlobalSection(SolutionConfigurationPlatforms)" :: configurations)).toUTF8)]

/-- What is found there, and what becomes of it when a configuration is selected and a file is
added. -/
theorem scan_solutionTree :
    ∃ start, scan {} (solutionTree ["D", "R"]) "." ⟨1⟩ = .ok start ∧
      (start.active = "D" ∧ start.configurations = ["D", "R"] ∧
        start.projects.map (·.files) = [[]]) ∧
      let edited := start.run [.select "R", .editAt 0 (.add "x.c")]
      edited.active = "R" ∧ edited.configurations = ["D", "R"] ∧ edited.discoveredAt = ⟨1⟩ ∧
        edited.projects.map (fun p => (p.files, p.configurations)) = [(["x.c"], ["D", "R"])] := by
  have hcheck : (scan {} (solutionTree ["D", "R"]) "." ⟨1⟩).toOption.any (fun start =>
      let edited := start.run [.select "R", .editAt 0 (.add "x.c")]
      (start.active, start.configurations, start.projects.map (·.files)) == ("D", ["D", "R"], [[]])
        && (edited.active, edited.configurations, edited.discoveredAt, edited.projects.map fun p =>
          (p.files, p.configurations)) == ("R", ["D", "R"], ⟨1⟩, [(["x.c"], ["D", "R"])]))
      = true := by
    decide +kernel
  obtain ⟨start, hscan, hfound⟩ := exists_scan_of_any hcheck
  simp only [Bool.and_eq_true, beq_iff_eq, Prod.mk.injEq] at hfound
  exact ⟨start, hscan, hfound⟩

/-- A session that selects, adds a file, selects in vain and then finds the solution without
configurations. -/
theorem consistent_run_of_scan_solutionTree :
    ∃ start, scan {} (solutionTree ["D", "R"]) "." ⟨1⟩ = .ok start ∧
      let edited := start.run [.select "R", .editAt 0 (.add "x.c")]
      edited.Consistent ∧ edited.active = "R" ∧
      edited.projects.map (fun p => (p.files, p.configurations)) = [(["x.c"], ["D", "R"])] ∧
      edited.step (.select "P") = edited ∧
      (start.run [.select "R", .editAt 0 (.add "x.c"),
        .rescan {} (solutionTree []) "." ⟨2⟩]).Consistent := by
  obtain ⟨start, hscan, -, hactive, hnames, -, hprojects⟩ := scan_solutionTree
  obtain ⟨hconsistent, hselect⟩ :=
    consistent_run_of_scan hscan [.select "R", .editAt 0 (.add "x.c")]
  refine ⟨start, hscan, hconsistent, hactive, hprojects, ((hselect "P").2 ?_).2,
    (consistent_run_of_scan hscan _).1⟩
  rw [hnames]
  decide

end Workspace

end BuildAtlas
