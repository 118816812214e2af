import BuildAtlas.Workspace
import Mathlib.Data.List.Forall2

/-!
# BuildAtlas.Proofs.Workspace.Documents

The editor's documents of a workspace agree with each other.

Tasks, launch entries and properties are made one by one from the projects and the active
configuration. `DocumentsAgree` says how they fit together: which task is whose, which projects can
be started, that starting a project builds this project first, and whose properties a full name
leads to. It holds of every workspace (`documentsAgree`), so of all that a session can reach,
whatever the projects have in common and whether or not they know the active configuration.
-/

namespace BuildAtlas

/-! ### Positions in lists -/

section Positions

variable {α β : Type}

theorem getElem?_flatMap_pair (f g : α → β) (as : List α) (i : Nat) :
    (as.flatMap fun a => [f a, g a])[2 * i]? = as[i]?.map f ∧
      (as.flatMap fun a => [f a, g a])[2 * i + 1]? = as[i]?.map g := by
  induction as generalizing i with
  | nil => simp
  | cons a rest ih =>
      cases i with
      | zero => exact ⟨rfl, rfl⟩
      | succ i => exact ih i

/-- What is kept of a list stands in the order of the positions from which it comes. -/
theorem exists_positions_filterMap (f : α → Option β) (as : List α) :
    ∃ positions : List Nat, positions.Pairwise (· < ·) ∧
      (∀ i, i ∈ positions ↔ ∃ a b, as[i]? = some a ∧ f a = some b) ∧
      List.Forall₂ (fun b i => ∃ a, as[i]? = some a ∧ f a = some b) (as.filterMap f) positions := by
  induction as with
  | nil => exact ⟨[], .nil, by simp, .nil⟩
  | cons a rest ih =>
      obtain ⟨positions, hsorted, hmem, hfrom⟩ := ih
      have hsorted' : (positions.map (· + 1)).Pairwise (· < ·) :=
        hsorted.map _ fun i j hij => Nat.succ_lt_succ hij
      have hfrom' : List.Forall₂ (fun b i => ∃ c, (a :: rest)[i]? = some c ∧ f c = some b)
          (rest.filterMap f) (positions.map (· + 1)) :=
        List.forall₂_map_right_iff.2 hfrom
      have hmem' (i : Nat) : i + 1 ∈ positions.map (· + 1) ↔
          ∃ c b, (a :: rest)[i + 1]? = some c ∧ f c = some b := by
        rw [List.getElem?_cons_succ, ← hmem]
        simp
      cases hkept : f a with
      | none =>
          refine ⟨positions.map (· + 1), hsorted', fun i => ?_, ?_⟩
          · cases i with
            | zero => simp [hkept]
            | succ i => exact hmem' i
          · rwa [List.filterMap_cons_none hkept]
      | some b =>
          refine ⟨0 :: positions.map (· + 1), .cons (by simp) hsorted', fun i => ?_, ?_⟩
          · cases i with
            | zero => simp [hkept]
            | succ i =>
                rw [List.mem_cons, hmem']
                simp
          · rw [List.filterMap_cons_some hkept]
            exact .cons ⟨a, rfl, hkept⟩ hfrom'

end Positions

namespace Workspace

/-- The entry starts the project at a position, and first runs the task that builds this project. A
project without a binary is started as well, with no program. -/
def Launches (workspace : Workspace) (entry : LaunchEntry) (i : Nat) : Prop :=
  ∃ p task, workspace.projects[i]? = some p ∧ workspace.tasks.tasks[2 * i]? = some task ∧
    entry.name = p.name ∧ entry.cwd = (p.rootDir.find? workspace.active).getD "" ∧
    entry.program = Project.program entry.cwd ((p.binaryPath.find? workspace.active).getD "") ∧
    entry.preLaunchTask = task.label

/-- The documents agree: each reads what the projects store in the active configuration. -/
structure DocumentsAgree (workspace : Workspace) : Prop where
  length_tasks : workspace.tasks.tasks.length = 2 * workspace.projects.length
  /-- Each project has a task that builds it, -/
  buildTask : ∀ i p, workspace.projects[i]? = some p → workspace.tasks.tasks[2 * i]? = some {
    label := "build " ++ p.fullName
    kind := "shell"
    command := (p.buildCommand.find? workspace.active).getD "" }
  /-- and behind it one that cleans it. -/
  cleanTask : ∀ i p, workspace.projects[i]? = some p → workspace.tasks.tasks[2 * i + 1]? = some {
    label := "clean " ++ p.fullName
    kind := "shell"
    command := (p.cleanCommand.find? workspace.active).getD "" }
  /-- The entries start just the executables, in the order of the projects. -/
  launch : ∃ positions : List Nat, positions.Pairwise (· < ·) ∧
    (∀ i, i ∈ positions ↔ ∃ p, workspace.projects[i]? = some p ∧
      p.kind.find? workspace.active = some .executable) ∧
    List.Forall₂ workspace.Launches workspace.launch.entries positions
  properties_missing : ∀ fullName, (∀ p ∈ workspace.projects, p.fullName ≠ fullName) →
    workspace.properties fullName = .error (.projectNotFound fullName)
  /-- Of the projects with one full name the first is described. -/
  properties_first : ∀ (i : Nat) (p : Project), workspace.projects[i]? = some p →
    (∀ (j : Nat) (q : Project), j < i → workspace.projects[j]? = some q → q.fullName ≠ p.fullName) →
    workspace.properties p.fullName = .ok {
      configurations := [{
        name := p.fullName
        includePath := (p.includeDirs.find? workspace.active).getD []
        defines := (p.defines.find? workspace.active).getD []
        cStandard :=
          "c" ++ (p.cStandard.find? workspace.active).getD CompileFlags.default.cStandard
        cppStandard :=
          "c++" ++ (p.cppStandard.find? workspace.active).getD CompileFlags.default.cppStandard }]
      version := 4 }

variable (workspace : Workspace)

/-! ### Tasks -/

theorem getElem?_tasks (i : Nat) :
    workspace.tasks.tasks[2 * i]? = workspace.projects[i]?.map (·.buildTask workspace.active) ∧
      workspace.tasks.tasks[2 * i + 1]? =
        workspace.projects[i]?.map (·.cleanTask workspace.active) :=
  getElem?_flatMap_pair ..

theorem length_tasks : workspace.tasks.tasks.length = 2 * workspace.projects.length := by
  simp [tasks, List.length_flatMap, Nat.mul_comm]

/-! ### Launch entries -/

theorem launch?_eq_some_iff {p : Project} {configuration : String} {entry : LaunchEntry} :
    p.launch? configuration = some entry ↔ p.kind.find? configuration = some .executable ∧
      { name := p.name
        kind := "cppdbg"
        request := "launch"
        program := Project.program ((p.rootDir.find? configuration).getD "")
          ((p.binaryPath.find? configuration).getD "")
        cwd := (p.rootDir.find? configuration).getD ""
        preLaunchTask := p.buildLabel } = entry := by
  rw [Project.launch?, Option.ite_none_right_eq_some, Option.some.injEq]
  rfl

theorem launches_of_launch? {p : Project} {entry : LaunchEntry} {i : Nat}
    (hp : workspace.projects[i]? = some p) (h : p.launch? workspace.active = some entry) :
    workspace.Launches entry i := by
  obtain ⟨-, rfl⟩ := launch?_eq_some_iff.1 h
  refine ⟨p, p.buildTask workspace.active, hp, ?_, rfl, rfl, rfl, rfl⟩
  rw [(workspace.getElem?_tasks i).1, hp]
  rfl

theorem exists_positions_launch : ∃ positions : List Nat, positions.Pairwise (· < ·) ∧
    (∀ i, i ∈ positions ↔ ∃ p, workspace.projects[i]? = some p ∧
      p.kind.find? workspace.active = some .executable) ∧
    List.Forall₂ workspace.Launches workspace.launch.entries positions := by
  obtain ⟨positions, hsorted, hmem, hfrom⟩ :=
    exists_positions_filterMap (·.launch? workspace.active) workspace.projects
  refine ⟨positions, hsorted, fun i => (hmem i).trans ⟨?_, ?_⟩, hfrom.imp fun entry i h => ?_⟩
  · rintro ⟨p, entry, hp, hentry⟩
    exact ⟨p, hp, (launch?_eq_some_iff.1 hentry).1⟩
  · rintro ⟨p, hp, hkind⟩
    exact ⟨p, _, hp, launch?_eq_some_iff.2 ⟨hkind, rfl⟩⟩
  · obtain ⟨p, hp, hentry⟩ := h
    exact workspace.launches_of_launch? hp hentry

/-! ### Properties -/

theorem project?_eq_none {fullName : String}
    (h : ∀ p ∈ workspace.projects, p.fullName ≠ fullName) :
    workspace.project? fullName = none := by
  rw [project?, List.find?_eq_none]
  intro p hp
  simpa using h p hp

theorem project?_first {i : Nat} {p : Project} (hp : workspace.projects[i]? = some p)
    (hfirst : ∀ j q, j < i → workspace.projects[j]? = some q → q.fullName ≠ p.fullName) :
    workspace.project? p.fullName = some p := by
  obtain ⟨hi, hget⟩ := List.getElem?_eq_some_iff.1 hp
  rw [project?, List.find?_eq_some_iff_getElem]
  refine ⟨beq_self_eq_true _, i, hi, hget, fun j hj => ?_⟩
  simpa using hfirst j _ hj (List.getElem?_eq_getElem (Nat.lt_trans hj hi))

/-- In every workspace the documents agree. -/
theorem documentsAgree : workspace.DocumentsAgree where
  length_tasks := workspace.length_tasks
  buildTask i p hp := by
    rw [(workspace.getElem?_tasks i).1, hp]
    rfl
  cleanTask i p hp := by
    rw [(workspace.getElem?_tasks i).2, hp]
    rfl
  launch := workspace.exists_positions_launch
  properties_missing fullName h := by
    rw [properties, workspace.project?_eq_none h]
  properties_first i p hp hfirst := by
    rw [properties, workspace.project?_first hp hfirst]
    rfl

end Workspace

end BuildAtlas
