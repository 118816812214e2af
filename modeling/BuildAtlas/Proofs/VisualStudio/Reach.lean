import BuildAtlas.Proofs.VisualStudio.Sections

/-!
# BuildAtlas.Proofs.VisualStudio.Reach

What a section about configurations adds to a solution, and how far a damaged one reaches.

`ReadIn` puts a solution together from what stands before a section, the section's lines, and what
stands after it. A section that is ended takes its own lines. One that lacks its end takes whatever
comes up to the next end, the headers of other sections included, and from there on nothing is left
of the damage (`sections_reach_to_next_end`).
-/

namespace BuildAtlas.VisualStudio

/-! ### Beginnings of names -/

namespace SolutionEntry

theorem key_cases (line : String) : key line = line ∨
    ∃ rest, line.toList = (key line).toList ++ '=' :: rest := by
  cases hcut : Text.splitOnce? "=" line with
  | none => exact .inl (by simp [key, hcut])
  | some parts =>
      obtain ⟨⟨before, rest⟩, hbreak, rfl⟩ := Option.map_eq_some_iff.1 hcut
      refine .inr ⟨rest, ?_⟩
      rw [key, hcut, Option.map_some, Option.getD_some, String.toList_ofList]
      exact (Text.breakOn?_singleton_eq_some_iff.1 hbreak).1

theorem isPrefix_key (line : String) : (key line).toList <+: line.toList := by
  rcases key_cases line with h | ⟨rest, h⟩
  · rw [h]
  · exact ⟨_, h.symm⟩

theorem starts_key {start line : String} (h : '=' ∉ start.toList) :
    Starts start (key line) ↔ Starts start line := by
  constructor
  · exact fun hprefix => hprefix.trans (isPrefix_key line)
  · intro hprefix
    rcases key_cases line with hkey | ⟨rest, hline⟩
    · rw [hkey]
      exact hprefix
    · rw [Starts, hline] at hprefix
      rcases List.prefix_or_prefix_of_prefix hprefix (List.prefix_append _ _) with hshort | hlong
      · exact hshort
      · -- a longer beginning holds the equals sign
        obtain ⟨more, hmore⟩ := hlong
        rw [← hmore] at hprefix h
        cases more with
        | nil => exact ⟨[], by rw [List.append_nil, ← hmore, List.append_nil]⟩
        | cons c more =>
            have hsign := (List.prefix_append_right_inj (key line).toList).1 hprefix
            obtain ⟨rfl, -⟩ := List.cons_prefix_cons.1 hsign
            exact absurd (List.mem_append_right _ List.mem_cons_self) h

theorem starts_trim {start text : String} (hstart : start.toList.any Text.isBlank = false)
    (htext : ∀ c, text.toList.head? = some c → Text.isBlank c = false) :
    Starts start (Text.trim text) ↔ Starts start text := by
  have hkept (c : Char) (hc : c ∈ start.toList) : Text.isBlank c = false :=
    Bool.eq_false_iff.2 (List.any_eq_false.1 hstart c hc)
  rw [Starts, Starts, Text.trim, Text.trimMatches, String.toList_ofList]
  constructor
  · exact fun h => h.trans (Text.isPrefix_trimWhere htext)
  · exact Text.prefix_trimWhere (fun c hc => hkept c (List.mem_of_head? hc))
      (fun c hc => hkept c (List.mem_of_getLast? hc))

end SolutionEntry

theorem isBlank_of_mem_linesOf {text line : String} {c : Char} (hline : line ∈ linesOf text)
    (hc : line.toList.head? = some c) : Text.isBlank c = false := by
  obtain ⟨raw, -, rfl⟩ := List.mem_map.1 hline
  rw [Text.trim, Text.trimMatches, String.toList_ofList] at hc
  exact Text.eq_false_of_head?_trimWhere hc

namespace Solution

/-! ### What a section adds -/

/-- The names that lines give when they are read in a section. -/
def namesIn : Section → List String → List String
  | .solutionConfigurations, lines =>
    lines.filterMap fun line => (SolutionEntry.configuration? line).bind configuration?
  | _, _ => []

/-- The active configurations that lines give when they are read in a section. -/
def activeIn : Section → List String → List (String × String × String)
  | .projectConfigurations, lines =>
    lines.filterMap fun line => (SolutionEntry.active? line).bind active?
  | _, _ => []

theorem active_ofEntries (path : String) (entries : List SolutionEntry) :
    (ofEntries path entries).active = entries.filterMap active? := rfl

/-- The last that is said about a project in a configuration of the solution. -/
def lastAbout (active : List (String × String × String)) (guid configuration : String) :
    Option String :=
  ((active.filter fun (key, name, _) =>
    key == projectKey guid && name == configuration).getLast?).map (·.2.2)

theorem projectConfiguration_eq (solution : Solution) (guid configuration : String) :
    solution.projectConfiguration guid configuration =
      (lastAbout solution.active guid configuration).getD "" := rfl

theorem lastAbout_append (front back : List (String × String × String))
    (guid configuration : String) : lastAbout (front ++ back) guid configuration =
      (lastAbout back guid configuration).or (lastAbout front guid configuration) := by
  rw [lastAbout, List.filter_append, List.getLast?_append, Option.map_or]
  rfl

/-- A solution is put together from what stands before a section, the section's lines, and what
stands after it. -/
structure ReadIn (solution : Solution) (place : Section) (before : Solution) (lines : List String)
    (after : Solution) : Prop where
  projects_eq : solution.projects = before.projects ++ after.projects
  isGenerated_eq : solution.isGenerated = (before.isGenerated || after.isGenerated)
  mem_configurations_iff : ∀ name, name ∈ solution.configurations ↔
    name ∈ before.configurations ∨ name ∈ namesIn place lines ∨ name ∈ after.configurations
  active_eq : solution.active = before.active ++ activeIn place lines ++ after.active
  /-- The last line about a project in a configuration counts, wherever it stands. -/
  projectConfiguration_eq : ∀ guid configuration,
    solution.projectConfiguration guid configuration =
      ((lastAbout after.active guid configuration).or
        ((lastAbout (activeIn place lines) guid configuration).or
          (lastAbout before.active guid configuration))).getD ""

section Entries

variable {place : Section} {line : String} {entry : SolutionEntry}

theorem project?_of_gives? (directory : String) (h : place.gives? line = some entry) :
    project? directory entry = none := by
  rcases SolutionEntry.gives?_cases h with ⟨-, name, rfl⟩ | ⟨-, guid, name, value, rfl⟩
  · rfl
  · rfl

theorem isUtility_of_gives? (h : place.gives? line = some entry) : isUtility entry = false := by
  rcases SolutionEntry.gives?_cases h with ⟨-, name, rfl⟩ | ⟨-, guid, name, value, rfl⟩
  · rfl
  · rfl

theorem filterMap_project?_gives? (directory : String) (place : Section) (lines : List String) :
    (lines.filterMap place.gives?).filterMap (project? directory) = [] := by
  rw [List.filterMap_eq_nil_iff]
  intro entry hentry
  obtain ⟨line, -, h⟩ := List.mem_filterMap.1 hentry
  exact project?_of_gives? directory h

theorem any_isUtility_gives? (place : Section) (lines : List String) :
    (lines.filterMap place.gives?).any isUtility = false := by
  rw [List.any_eq_false]
  intro entry hentry
  obtain ⟨line, -, h⟩ := List.mem_filterMap.1 hentry
  rw [isUtility_of_gives? h]
  exact Bool.false_ne_true

theorem filterMap_configuration?_gives? (place : Section) (lines : List String) :
    (lines.filterMap place.gives?).filterMap configuration? = namesIn place lines := by
  rw [List.filterMap_filterMap]
  cases place with
  | outside => exact List.filterMap_eq_nil_iff.2 fun _ _ => rfl
  | solutionConfigurations => rfl
  | projectConfigurations =>
      refine List.filterMap_eq_nil_iff.2 fun line _ => Option.bind_eq_none_iff.2 fun entry h => ?_
      rcases SolutionEntry.gives?_cases h with ⟨hplace, -⟩ | ⟨-, guid, name, value, rfl⟩
      · exact nomatch hplace
      · rfl

theorem filterMap_active?_gives? (place : Section) (lines : List String) :
    (lines.filterMap place.gives?).filterMap active? = activeIn place lines := by
  rw [List.filterMap_filterMap]
  cases place with
  | outside => exact List.filterMap_eq_nil_iff.2 fun _ _ => rfl
  | solutionConfigurations =>
      refine List.filterMap_eq_nil_iff.2 fun line _ => Option.bind_eq_none_iff.2 fun entry h => ?_
      rcases SolutionEntry.gives?_cases h with ⟨-, name, rfl⟩ | ⟨hplace, -⟩
      · rfl
      · exact nomatch hplace
  | projectConfigurations => rfl

end Entries

theorem readIn_ofEntries {path : String} {place : Section} {lines : List String}
    {entries before after : List SolutionEntry}
    (h : entries = before ++ (lines.filterMap place.gives? ++ after)) :
    (ofEntries path entries).ReadIn place (ofEntries path before) lines (ofEntries path after) := by
  have hactive : (ofEntries path entries).active = (ofEntries path before).active ++
      activeIn place lines ++ (ofEntries path after).active := by
    rw [active_ofEntries, active_ofEntries, active_ofEntries, h, List.filterMap_append,
      List.filterMap_append, filterMap_active?_gives?, List.append_assoc]
  refine ⟨?_, ?_, ?_, hactive, ?_⟩
  · rw [ofEntries, h, List.filterMap_append, List.filterMap_append, filterMap_project?_gives?]
    rfl
  · rw [ofEntries, h, List.any_append, List.any_append, any_isUtility_gives?]
    rfl
  · intro name
    rw [configurations_ofEntries, configurations_ofEntries, configurations_ofEntries, h,
      List.filterMap_append, List.filterMap_append, filterMap_configuration?_gives?]
    simp only [List.mem_eraseDups, List.mem_append]
  · intro guid configuration
    rw [projectConfiguration_eq, hactive, lastAbout_append, lastAbout_append]

/-! ### How far a section reaches -/

/-- At a line that does not end it, an open section takes this line and all up to the next end. -/
theorem readIn_of_openAfter {path : String} {place : Section} {before later : List String}
    {next : String} (hopen : OpenAfter place before) (hnext : ¬ Ends next) :
    (ofLines path (before ++ next :: later)).ReadIn place (ofLines path before)
      (next :: upToEnd later) (ofLines path (fromEnd later)) := by
  have hplace : place ≠ .outside := hopen.ne_outside
  have htaken : upToEnd (next :: later) = next :: upToEnd later :=
    List.takeWhile_cons_of_pos (by simpa using hnext)
  have hleft : fromEnd (next :: later) = fromEnd later :=
    List.dropWhile_cons_of_pos (by simpa using hnext)
  refine readIn_ofEntries ?_
  rw [SolutionEntry.ofLines_append, (SolutionEntry.after_eq_iff hplace).2 hopen,
    SolutionEntry.ofLines_inside hplace, htaken, hleft]

/-- Where no section is open, a header opens its section, and that takes all up to the next end. -/
theorem readIn_of_opens {path : String} {place : Section} {before later : List String}
    {next : String} (hopen : ∀ other, ¬ OpenAfter other before) (hnext : Opens place next) :
    (ofLines path (before ++ next :: later)).ReadIn place (ofLines path before)
      (upToEnd later) (ofLines path (fromEnd later)) := by
  refine readIn_ofEntries ?_
  rw [SolutionEntry.ofLines_append, SolutionEntry.after_eq_outside_iff.2 hopen,
    SolutionEntry.ofLines_cons, SolutionEntry.ofLine_of_opens hnext,
    SolutionEntry.ofLines_inside hnext.ne_outside]
  rfl

theorem mem_configurations_iff {path text name : String} :
    name ∈ (parse path text).configurations ↔ ∃ before next later,
      linesOf text = before ++ next :: later ∧ OpenAfter .solutionConfigurations before ∧
        ¬ Ends next ∧ SolutionEntry.configuration? next = some (.configuration name) := by
  rw [← SolutionEntry.configuration_mem_ofLines_iff, parse_eq, ofLines, configurations_ofEntries,
    List.mem_eraseDups, List.mem_filterMap]
  constructor
  · rintro ⟨entry, hentry, hname⟩
    cases entry with
    | configuration other =>
        obtain rfl := Option.some.inj hname
        exact hentry
    | project => exact nomatch hname
    | active => exact nomatch hname
    | malformed => exact nomatch hname
  · exact fun h => ⟨_, h, rfl⟩

/-- What no name of a configuration should begin with: the header of a section, or the end of the
global part. -/
def boundaries : List String :=
  ["GlobalSection(", "EndGlobal"]

theorem plain_of_mem_boundaries : ∀ start ∈ boundaries,
    start ≠ "" ∧ '=' ∉ start.toList ∧ start.toList.any Text.isBlank = false := by
  decide

theorem starts_name {text line start : String} (hstart : start ∈ boundaries)
    (hline : line ∈ linesOf text) :
    Starts start (Text.trim (SolutionEntry.key line)) ↔ Starts start line := by
  obtain ⟨-, hsign, hplain⟩ := plain_of_mem_boundaries start hstart
  have hkey : ∀ c, (SolutionEntry.key line).toList.head? = some c → Text.isBlank c = false := by
    intro c hc
    obtain ⟨rest, hrest⟩ := SolutionEntry.isPrefix_key line
    refine isBlank_of_mem_linesOf hline ?_
    rw [← hrest, List.head?_append, hc]
    rfl
  exact (SolutionEntry.starts_trim hplain hkey).trans (SolutionEntry.starts_key hsign)

/-- A boundary becomes a name exactly when a section about solution configurations is open at its
line. -/
theorem starts_mem_configurations_iff {path text start : String} (hstart : start ∈ boundaries) :
    (∃ name ∈ (parse path text).configurations, Starts start name) ↔ ∃ before next later,
      linesOf text = before ++ next :: later ∧ OpenAfter .solutionConfigurations before ∧
        ¬ Ends next ∧ Starts start next := by
  constructor
  · rintro ⟨name, hmem, hname⟩
    obtain ⟨before, next, later, hlines, hopen, hend, hread⟩ := mem_configurations_iff.1 hmem
    have hnext : next ∈ linesOf text := hlines ▸ List.mem_append_right _ List.mem_cons_self
    obtain ⟨rfl, -⟩ := SolutionEntry.configuration?_eq_some_iff.1 hread
    exact ⟨before, next, later, hlines, hopen, hend, (starts_name hstart hnext).1 hname⟩
  · rintro ⟨before, next, later, hlines, hopen, hend, hnext⟩
    have hmem : next ∈ linesOf text := hlines ▸ List.mem_append_right _ List.mem_cons_self
    have hname := (starts_name hstart hmem).2 hnext
    have hne : Text.trim (SolutionEntry.key next) ≠ "" := by
      intro hempty
      rw [hempty, Starts, String.toList_empty, List.prefix_nil, String.toList_eq_nil_iff] at hname
      exact (plain_of_mem_boundaries start hstart).1 hname
    exact ⟨_, mem_configurations_iff.2 ⟨before, next, later, hlines, hopen, hend,
      SolutionEntry.configuration?_eq_some_iff.2 ⟨rfl, hne⟩⟩, hname⟩

/-- A section about configurations reaches up to the next line that ends one, and no further. In
every text the names of configurations are those of the lines at which a section about solution
configurations is open, and so the header of a section, or the end of the global part, becomes a
name exactly where such a section lacks its end in front of it. At a line that does not end it, an
open section takes this line and all up to the next end: a header opens no section of its own, and
lines about active configurations are found only if the open section is about them. Where no section
is open, a header opens its own. Either way, what stands from the next end on is read as if it stood
alone, and where it says something about a project in a configuration, this is what counts. -/
theorem sections_reach_to_next_end (path text : String) :
    (∀ name, name ∈ (parse path text).configurations ↔ ∃ before next later,
      linesOf text = before ++ next :: later ∧ OpenAfter .solutionConfigurations before ∧
        ¬ Ends next ∧ SolutionEntry.configuration? next = some (.configuration name)) ∧
    (∀ start ∈ boundaries, (∃ name ∈ (parse path text).configurations, Starts start name) ↔
      ∃ before next later, linesOf text = before ++ next :: later ∧
        OpenAfter .solutionConfigurations before ∧ ¬ Ends next ∧ Starts start next) ∧
    ∀ before next later, linesOf text = before ++ next :: later → ¬ Ends next →
      (∀ place, OpenAfter place before →
        (parse path text).ReadIn place (ofLines path before) (next :: upToEnd later)
          (ofLines path (fromEnd later))) ∧
      ((∀ place, ¬ OpenAfter place before) → ∀ place, Opens place next →
        (parse path text).ReadIn place (ofLines path before) (upToEnd later)
          (ofLines path (fromEnd later))) := by
  refine ⟨fun name => mem_configurations_iff,
    fun start hstart => starts_mem_configurations_iff hstart, ?_⟩
  intro before next later hlines hnext
  rw [parse_eq, hlines]
  constructor
  · intro place hopen
    exact readIn_of_openAfter hopen hnext
  · intro hopen place hopens
    exact readIn_of_opens hopen hopens

/-- A section about solution configurations without its end, followed by an intact section. -/
def unterminatedText : String :=
  "GlobalSection(SolutionConfigurationPlatforms)\nD\n" ++
    "GlobalSection(ProjectConfigurationPlatforms)\nA.D.ActiveCfg = X\nEndGlobalSection"

theorem linesOf_unterminatedText : linesOf unterminatedText =
    ["GlobalSection(SolutionConfigurationPlatforms)", "D",
      "GlobalSection(ProjectConfigurationPlatforms)", "A.D.ActiveCfg = X", "EndGlobalSection"] :=
  linesOf_of_eq String.ofList_append.symm (by decide +kernel)

/-- The header of the intact section becomes a name, and what the section says is not found. -/
theorem header_mem_configurations_unterminatedText :
    "GlobalSection(ProjectConfigurationPlatforms)" ∈
        (parse "a.sln" unterminatedText).configurations ∧
      (parse "a.sln" unterminatedText).projectConfiguration "A" "D" = "" := by
  rw [parse_eq, linesOf_unterminatedText]
  decide +kernel

theorem sections_reach_to_next_end_unterminatedText :
    (parse "a.sln" unterminatedText).ReadIn .solutionConfigurations
      (ofLines "a.sln" ["GlobalSection(SolutionConfigurationPlatforms)", "D"])
      ["GlobalSection(ProjectConfigurationPlatforms)", "A.D.ActiveCfg = X"]
      (ofLines "a.sln" ["EndGlobalSection"]) := by
  have hopen : OpenAfter .solutionConfigurations
      ["GlobalSection(SolutionConfigurationPlatforms)", "D"] :=
    ⟨[], [], _, _, rfl, by simp, by decide, by simp, .solutionConfigurations (by decide)⟩
  have hnext : ¬ Ends "GlobalSection(ProjectConfigurationPlatforms)" := by decide
  obtain ⟨-, -, hreach⟩ := sections_reach_to_next_end "a.sln" unterminatedText
  exact (hreach _ _ _ linesOf_unterminatedText hnext).1 _ hopen

end Solution

end BuildAtlas.VisualStudio
