import BuildAtlas.Proofs.Workspace.Session
import BuildAtlas.Proofs.Workspace.Sum

/-!
# BuildAtlas.Proofs.Workspace.Replacement

What a workspace keeps when a newer scan takes its place.

Nothing is kept but the choice of the active configuration, and that only where the newer scan knows
it (`Consistent.replaceWith_eq`); even the time is that of the newer scan. So what takes the place
of a workspace does not depend on the rest of it, and a choice lasts for as long as every scan knows
it (`active_foldl_replaceWith`).
-/

namespace BuildAtlas.Workspace

/-- The newer workspace with the choice of the older one, if that is one of its configurations. -/
theorem Consistent.replaceWith_eq {newer : Workspace} (h : newer.Consistent) (older : Workspace) :
    older.replaceWith newer = { newer with
      selection := { newer.selection with
        active := if older.active ≠ "" ∧ older.active ∈ newer.configurations then older.active
          else newer.active } } := by
  rw [Workspace.replaceWith]
  by_cases hempty : older.active = ""
  · rw [if_pos hempty, if_neg fun hkept => hkept.1 hempty]
    rfl
  · rw [if_neg hempty]
    rcases select_cases newer older.active with ⟨hmem, heq⟩ | ⟨hmem, heq⟩
    · rw [h.available_eq] at hmem
      rw [heq, if_pos ⟨hempty, hmem⟩]
    · rw [h.available_eq] at hmem
      rw [heq, if_neg fun hkept => hmem hkept.2]
      rfl

theorem Consistent.active_replaceWith {newer : Workspace} (h : newer.Consistent)
    (older : Workspace) : (older.replaceWith newer).active =
      if older.active ≠ "" ∧ older.active ∈ newer.configurations then older.active
      else newer.active := by
  rw [h.replaceWith_eq older]
  rfl

/-- The choice is kept by a scan that knows it. -/
theorem Consistent.active_replaceWith_of_mem {newer : Workspace} (h : newer.Consistent)
    {older : Workspace} (hmem : older.active ∈ newer.configurations) :
    (older.replaceWith newer).active = older.active := by
  have hne : older.active ≠ "" := fun hempty => h.empty_not_mem (hempty ▸ hmem)
  rw [h.active_replaceWith, if_pos ⟨hne, hmem⟩]

/-- The choice lasts through any number of scans that know it. -/
theorem active_foldl_replaceWith {older : Workspace} {passes : List Workspace}
    (h : ∀ newer ∈ passes, newer.Consistent ∧ older.active ∈ newer.configurations) :
    (passes.foldl replaceWith older).active = older.active := by
  induction passes generalizing older with
  | nil => rfl
  | cons newer passes ih =>
      rw [List.forall_mem_cons] at h
      obtain ⟨⟨hnewer, hmem⟩, hpasses⟩ := h
      have hkept := hnewer.active_replaceWith_of_mem hmem
      rw [List.foldl_cons, ih (by rwa [hkept]), hkept]

theorem discoveredAt_of_scan {settings : ImportSettings} {tree : FileTree} {root : String}
    {now : Time} {workspace : Workspace} (h : scan settings tree root now = .ok workspace) :
    workspace.discoveredAt = now := by
  unfold scan at h
  split at h
  · split at h
    · exact congrArg discoveredAt (Except.ok.inj h).symm
    · exact congrArg discoveredAt (Except.ok.inj h).symm
  · exact nomatch h

/-- When a scan takes the place of a workspace, all is as the scan found it, the time included, but
the name of the active configuration. That is the one from before where there was one and the scan
knows it. So the outcome depends on that name only, the same scan does not change it again, and a
choice that two scans know lasts through both. -/
theorem replaceWith_of_scan {settings : ImportSettings} {tree : FileTree} {root : String}
    {now : Time} {newer : Workspace} (hscan : scan settings tree root now = .ok newer)
    (older : Workspace) :
    older.replaceWith newer = { newer with
      selection := { newer.selection with
        active := if older.active ≠ "" ∧ older.active ∈ newer.configurations then older.active
          else newer.active } } ∧
    (older.replaceWith newer).discoveredAt = now ∧
    (∀ other : Workspace, older.active = other.active →
      older.replaceWith newer = other.replaceWith newer) ∧
    (older.replaceWith newer).replaceWith newer = older.replaceWith newer ∧
    (older.active ∈ newer.configurations → ∀ settings tree root later next,
      scan settings tree root later = .ok next → older.active ∈ next.configurations →
        ((older.replaceWith newer).replaceWith next).active = older.active) := by
  have hfound : newer.Consistent := consistent_of_scan hscan
  have hsame (other : Workspace) (hactive : older.active = other.active) :
      older.replaceWith newer = other.replaceWith newer := by
    rw [hfound.replaceWith_eq, hfound.replaceWith_eq, hactive]
  refine ⟨hfound.replaceWith_eq older, ?_, hsame, ?_, ?_⟩
  · rw [hfound.replaceWith_eq older, ← discoveredAt_of_scan hscan]
  · by_cases hkept : older.active ≠ "" ∧ older.active ∈ newer.configurations
    · -- the choice is kept, and so the outcome is chosen from the same name
      exact (hsame _ (hfound.active_replaceWith_of_mem hkept.2).symm).symm
    · have hactive : (older.replaceWith newer).active = newer.active := by
        rw [hfound.active_replaceWith, if_neg hkept]
      rw [hfound.replaceWith_eq (older.replaceWith newer), hactive, ite_self,
        hfound.replaceWith_eq older, if_neg hkept]
  · intro hmem settings tree root later next hnext hlater
    have hknown : ∀ pass ∈ [newer, next], pass.Consistent ∧ older.active ∈ pass.configurations := by
      rw [List.forall_mem_cons, List.forall_mem_singleton]
      exact ⟨⟨hfound, hmem⟩, consistent_of_scan hnext, hlater⟩
    exact active_foldl_replaceWith hknown

/-- A choice lasts while the configurations around it change. The time is that of the last scan, and
the files are as it found them. -/
theorem replaceWith_of_scan_solutionTree : ∃ start newer next : Workspace,
    scan {} (solutionTree ["D", "R"]) "." ⟨1⟩ = .ok start ∧
      scan {} (solutionTree ["D", "R"]) "." ⟨2⟩ = .ok newer ∧
      scan {} (solutionTree ["P", "R"]) "." ⟨3⟩ = .ok next ∧
      newer.active = "D" ∧ next.active = "P" ∧
      let older := start.run [.select "R", .editAt 0 (.add "x.c")]
      older.active = "R" ∧ older.discoveredAt = ⟨1⟩ ∧
      older.projects.map (·.files) = [["x.c"]] ∧ newer.projects.map (·.files) = [[]] ∧
      older.replaceWith newer = { newer with selection := { newer.selection with active := "R" } } ∧
      (older.replaceWith newer).discoveredAt = ⟨2⟩ ∧
      ((older.replaceWith newer).replaceWith next).active = "R" := by
  have hcheckNext : (scan {} (solutionTree ["P", "R"]) "." ⟨3⟩).toOption.any (fun found =>
      (found.active, found.configurations) == ("P", ["P", "R"])) = true := by
    decide +kernel
  obtain ⟨start, hstart, ⟨hfirst, hnames, hnone⟩, hactive, -, htime, hprojects⟩ :=
    scan_solutionTree
  obtain ⟨next, hnext, hlater⟩ := exists_scan_of_any hcheckNext
  simp only [beq_iff_eq, Prod.mk.injEq] at hlater
  -- the scan finds the same at another time
  obtain ⟨newer, hnewer, hactiveNewer, hknown, hfilesNewer⟩ :
      ∃ newer, scan {} (solutionTree ["D", "R"]) "." ⟨2⟩ = .ok newer ∧ newer.active = "D" ∧
        newer.configurations = ["D", "R"] ∧ newer.projects.map (·.files) = [[]] := by
    refine ⟨start.foundAt ⟨2⟩, ?_, hfirst, hnames, hnone⟩
    rw [scan_foundAt _ _ _ ⟨1⟩, hstart]
    rfl
  have hfiles := congrArg (List.map Prod.fst) hprojects
  rw [List.map_map] at hfiles
  obtain ⟨heq, htimeNewer, -, -, hlasts⟩ :=
    replaceWith_of_scan hnewer (start.run [.select "R", .editAt 0 (.add "x.c")])
  have hkept : "R" ≠ "" ∧ "R" ∈ newer.configurations := by
    rw [hknown]
    decide
  rw [hactive, if_pos hkept] at heq
  refine ⟨start, newer, next, hstart, hnewer, hnext, hactiveNewer, hlater.1, hactive, htime, hfiles,
    hfilesNewer, heq, htimeNewer, ?_⟩
  rw [hlasts (by simp [hactive, hknown]) _ _ _ _ next hnext (by simp [hactive, hlater.2]), hactive]

end BuildAtlas.Workspace
