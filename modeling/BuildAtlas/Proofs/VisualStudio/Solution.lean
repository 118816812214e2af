import BuildAtlas.VisualStudio.Solution

/-!
# BuildAtlas.Proofs.VisualStudio.Solution

What the readers of a solution's lines give, and the configurations that a solution lists: none is
without a name.
-/

namespace BuildAtlas.VisualStudio

namespace SolutionEntry

/-! ### Readers of lines -/

/-- What stands in front of the equals sign of a line, or all of a line without one. -/
def key (line : String) : String :=
  ((Text.splitOnce? "=" line).map (·.1)).getD line

theorem configuration?_eq (line : String) : configuration? line =
    if Text.trim (key line) = "" then none else some (.configuration (Text.trim (key line))) := rfl

theorem configuration?_eq_some_iff {line name : String} :
    configuration? line = some (.configuration name) ↔ Text.trim (key line) = name ∧ name ≠ "" := by
  rw [configuration?_eq]
  by_cases h : Text.trim (key line) = ""
  · rw [if_pos h]
    constructor
    · exact fun hnone => nomatch hnone
    · rintro ⟨rfl, hname⟩
      exact absurd h hname
  · rw [if_neg h]
    simp only [Option.some.injEq, configuration.injEq]
    constructor
    · rintro rfl
      exact ⟨rfl, h⟩
    · exact And.left

theorem exists_of_configuration? {line : String} {entry : SolutionEntry}
    (h : configuration? line = some entry) : ∃ name, entry = .configuration name := by
  rw [configuration?_eq] at h
  split at h
  · exact nomatch h
  · exact ⟨_, (Option.some.inj h).symm⟩

theorem exists_of_active? {line : String} {entry : SolutionEntry} (h : active? line = some entry) :
    ∃ guid name value, entry = .active guid name value := by
  simp only [active?, Option.bind_eq_bind, Option.bind_eq_some_iff] at h
  obtain ⟨_, -, _, -, _, -, h⟩ := h
  exact ⟨_, _, _, (Option.some.inj h).symm⟩

theorem exists_of_project? {line : String} {entry : SolutionEntry}
    (h : project? line = some entry) : ∃ name path guid, entry = .project name path guid := by
  unfold project? at h
  split at h
  · simp only [Option.bind_eq_bind, Option.bind_eq_some_iff] at h
    obtain ⟨_, -, h⟩ := h
    exact ⟨_, _, _, (Option.some.inj h).symm⟩
  · exact nomatch h

/-! ### Names of configurations -/

/-- Only a line inside the section about configurations names one. -/
theorem configuration_of_ofLine {place : Section} {line name : String}
    (h : (ofLine place line).1 = some (.configuration name)) :
    place = .solutionConfigurations ∧ begins "EndGlobalSection" line = false ∧
      configuration? line = some (.configuration name) := by
  unfold ofLine at h
  by_cases hend : begins "EndGlobalSection" line = true
  · simp [hend] at h
  · cases place with
    | solutionConfigurations =>
        simp only [hend, Bool.false_eq_true, ↓reduceIte] at h
        exact ⟨rfl, Bool.not_eq_true _ ▸ hend, h⟩
    | projectConfigurations =>
        simp only [hend, Bool.false_eq_true, ↓reduceIte] at h
        obtain ⟨_, _, _, h⟩ := exists_of_active? h
        exact nomatch h
    | outside =>
        by_cases hproject : begins "Project(" line = true
        · simp only [hend, hproject, Bool.false_eq_true, ↓reduceIte] at h
          cases hread : project? line with
          | none => simp [hread] at h
          | some entry =>
              obtain ⟨_, _, _, rfl⟩ := exists_of_project? hread
              rw [hread] at h
              exact nomatch h
        · simp [hend, hproject] at h

theorem ne_empty_of_mem_ofLines {name : String} {lines : List String} :
    ∀ {place : Section}, configuration name ∈ ofLines place lines → name ≠ "" := by
  induction lines with
  | nil =>
      intro place h
      simp [ofLines] at h
  | cons line rest ih =>
      intro place h
      rw [ofLines, List.mem_append, Option.mem_toList] at h
      rcases h with h | h
      · exact (configuration?_eq_some_iff.1 (configuration_of_ofLine h).2.2).2
      · exact ih h

end SolutionEntry

namespace Solution

@[simp] theorem path_parse (path text : String) : (parse path text).path = path := rfl

theorem configurations_ofEntries (path : String) (entries : List SolutionEntry) :
    (ofEntries path entries).configurations = (entries.filterMap configuration?).eraseDups := rfl

theorem empty_not_mem_configurations (path text : String) :
    "" ∉ (parse path text).configurations := by
  intro h
  rw [parse, configurations_ofEntries, List.mem_eraseDups] at h
  obtain ⟨entry, hentry, hname⟩ := List.mem_filterMap.1 h
  cases entry with
  | configuration name =>
      obtain rfl := Option.some.inj hname
      exact SolutionEntry.ne_empty_of_mem_ofLines hentry rfl
  | project => exact nomatch hname
  | active => exact nomatch hname
  | malformed => exact nomatch hname

end Solution

end BuildAtlas.VisualStudio
