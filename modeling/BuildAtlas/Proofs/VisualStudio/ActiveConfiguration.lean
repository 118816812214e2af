import BuildAtlas.Proofs.LastGiven
import BuildAtlas.Proofs.VisualStudio.Guid
import BuildAtlas.Proofs.VisualStudio.Reach

/-!
# BuildAtlas.Proofs.VisualStudio.ActiveConfiguration

Which configuration of a project is active in a configuration of the solution.

A line such as `A.Debug|x64.ActiveCfg = Release|x64` says so, where a section about the
configurations of projects is open (`projectLines`). The last such line counts that is about the
same project, in whichever spelling, and the same configuration. Nothing else in the text makes a
difference (`projectConfiguration_last_line`).
-/

namespace BuildAtlas.VisualStudio

/-! ### Lines about active configurations -/

/-- A line reads `guid.name.ActiveCfg = value`: what stands in front of its first equals sign is,
without the blanks around it, an identifier up to a first dot, the name of a configuration and the
ending. The name may hold dots itself. -/
def Activates (line guid name value : String) : Prop :=
  ∃ left right, line = left ++ "=" ++ right ∧ '=' ∉ left.toList ∧
    Text.trim left = guid ++ "." ++ name ++ ".ActiveCfg" ∧ '.' ∉ guid.toList ∧
    Text.trim right = value

/-- A line says which configuration of some project is active. -/
def IsActivation (line : String) : Prop :=
  ∃ guid name value, Activates line guid name value

/-- A line says which configuration of this project is active in this configuration of the
solution. -/
def Answers (guid configuration line value : String) : Prop :=
  ∃ other, SameProject other guid ∧ Activates line other configuration value

namespace SolutionEntry

theorem active?_eq_some_iff {line guid name value : String} :
    active? line = some (.active guid name value) ↔ Activates line guid name value := by
  have hsign : "=".toList = ['='] := rfl
  have hdot : ".".toList = ['.'] := rfl
  simp only [active?, Option.bind_eq_bind, Option.bind_eq_some_iff, Prod.exists,
    Text.splitOnce?_eq_some_iff hsign, Text.splitOnce?_eq_some_iff hdot,
    Text.dropEnd?_eq_some_iff, Option.pure_def, Option.some.injEq, active.injEq]
  constructor
  · rintro ⟨left, right, ⟨hline, hleft⟩, property, hproperty, guid, name, ⟨rfl, hguid⟩, rfl, rfl,
      rfl⟩
    exact ⟨left, right, hline, hleft, hproperty, hguid, rfl⟩
  · rintro ⟨left, right, hline, hleft, hproperty, hguid, rfl⟩
    exact ⟨left, right, ⟨hline, hleft⟩, _, hproperty, guid, name, ⟨rfl, hguid⟩, rfl, rfl, rfl⟩

theorem isSome_active?_iff {line : String} : (active? line).isSome ↔ IsActivation line := by
  rw [Option.isSome_iff_exists]
  constructor
  · rintro ⟨entry, hentry⟩
    obtain ⟨guid, name, value, rfl⟩ := exists_of_active? hentry
    exact ⟨guid, name, value, active?_eq_some_iff.1 hentry⟩
  · rintro ⟨guid, name, value, h⟩
    exact ⟨_, active?_eq_some_iff.2 h⟩

end SolutionEntry

instance (line : String) : Decidable (IsActivation line) :=
  decidable_of_iff _ SolutionEntry.isSome_active?_iff

/-! ### Lines in sections -/

theorem openAfter_iff {place : Section} {lines : List String} :
    place ≠ .outside ∧ Section.outside.after lines = place ↔ OpenAfter place lines := by
  constructor
  · exact fun h => (SolutionEntry.after_eq_iff h.1).1 h.2
  · exact fun h => ⟨h.ne_outside, (SolutionEntry.after_eq_iff h.ne_outside).2 h⟩

instance (place : Section) (lines : List String) : Decidable (OpenAfter place lines) :=
  decidable_of_iff _ openAfter_iff

/-- A line belongs to a section of this kind: one is open in front of it, and it does not end it. -/
def Inside (place : Section) (before : List String) (line : String) : Prop :=
  OpenAfter place before ∧ ¬ Ends line

instance (place : Section) (before : List String) (line : String) :
    Decidable (Inside place before line) :=
  inferInstanceAs (Decidable (_ ∧ _))

/-- The lines that belong to sections of a kind, of those that follow these lines. -/
def linesIn (place : Section) : (before lines : List String) → List String
  | _, [] => []
  | before, line :: rest =>
    if Inside place before line then line :: linesIn place (before ++ [line]) rest
    else linesIn place (before ++ [line]) rest

/-- The lines of a text that belong to sections about the configurations of projects. -/
def projectLines (text : String) : List String :=
  linesIn .projectConfigurations [] (linesOf text)

theorem SolutionEntry.place_of_ofLine_active {place : Section} {line guid name value : String}
    (h : (ofLine place line).1 = some (.active guid name value)) :
    place = .projectConfigurations ∧ ¬ Ends line := by
  by_cases hend : Ends line
  · rw [ofLine_of_ends hend] at h
    exact nomatch h
  refine ⟨?_, hend⟩
  by_cases hplace : place = .outside
  · subst hplace
    by_cases hproject : Starts "Project(" line
    · rw [ofLine_outside_of_project hproject] at h
      cases hread : project? line with
      | none => simp [hread] at h
      | some entry =>
          obtain ⟨_, _, _, rfl⟩ := exists_of_project? hread
          simp [hread] at h
    · rw [ofLine_outside_of_not_project hend hproject] at h
      exact nomatch h
  · rw [ofLine_of_not_ends hplace hend] at h
    rcases gives?_cases h with ⟨-, _, hentry⟩ | ⟨hplace, -⟩
    · exact nomatch hentry
    · exact hplace

theorem after_eq_of_openAfter_iff {lines others : List String}
    (h : ∀ place, OpenAfter place lines ↔ OpenAfter place others) :
    Section.outside.after lines = Section.outside.after others := by
  by_cases hother : Section.outside.after others = .outside
  · rw [hother, SolutionEntry.after_eq_outside_iff]
    exact fun place => mt (h place).1 (SolutionEntry.after_eq_outside_iff.1 hother place)
  · rw [SolutionEntry.after_eq_iff hother, h, ← SolutionEntry.after_eq_iff hother]

/-- A line that ends no section and is no header leaves open what is open. -/
theorem openAfter_concat_iff {place : Section} {before : List String} {line : String}
    (hend : ¬ Ends line) (hopens : ∀ other, ¬ Opens other line) :
    OpenAfter place (before ++ [line]) ↔ OpenAfter place before := by
  have hafter : Section.outside.after (before ++ [line]) = Section.outside.after before := by
    rw [Section.after_append, Section.after, List.foldl_cons, List.foldl_nil]
    by_cases hplace : Section.outside.after before = .outside
    · rw [hplace, SolutionEntry.ofLine_outside_of_not_opens hopens]
    · rw [SolutionEntry.ofLine_of_not_ends hplace hend]
  rw [← openAfter_iff, ← openAfter_iff, hafter]

theorem linesIn_append (place : Section) (before front back : List String) :
    linesIn place before (front ++ back) =
      linesIn place before front ++ linesIn place (before ++ front) back := by
  induction front generalizing before with
  | nil => rw [List.append_nil, linesIn, List.nil_append, List.nil_append]
  | cons line rest ih =>
      rw [List.cons_append, linesIn, linesIn, ih, List.append_assoc, List.singleton_append]
      by_cases hinside : Inside place before line
      · rw [if_pos hinside, if_pos hinside, List.cons_append]
      · rw [if_neg hinside, if_neg hinside]

/-- Which lines belong to sections depends on what is open in front of them only. -/
theorem linesIn_congr (place : Section) {before other : List String}
    (h : ∀ place, OpenAfter place before ↔ OpenAfter place other) (lines : List String) :
    linesIn place before lines = linesIn place other lines := by
  induction lines generalizing before other with
  | nil => rfl
  | cons line rest ih =>
      have hnext (place : Section) :
          OpenAfter place (before ++ [line]) ↔ OpenAfter place (other ++ [line]) := by
        rw [← openAfter_iff, ← openAfter_iff, Section.after_append, Section.after_append,
          after_eq_of_openAfter_iff h]
      have hinside : Inside place before line ↔ Inside place other line :=
        and_congr_left' (h place)
      rw [linesIn, linesIn, ih hnext]
      by_cases hother : Inside place other line
      · rw [if_pos (hinside.2 hother), if_pos hother]
      · rw [if_neg (mt hinside.1 hother), if_neg hother]

namespace Solution

/-- What a line says about active configurations counts only where it belongs to a section about
them. -/
theorem active?_ofLine (before : List String) (line : String) :
    (SolutionEntry.ofLine (Section.outside.after before) line).1.bind active? =
      if Inside .projectConfigurations before line then
        (SolutionEntry.active? line).bind active?
      else none := by
  have hopen : Section.outside.after before = .projectConfigurations ↔
      OpenAfter .projectConfigurations before := SolutionEntry.after_eq_iff Section.noConfusion
  by_cases hinside : Inside .projectConfigurations before line
  · rw [if_pos hinside, hopen.2 hinside.1,
      SolutionEntry.ofLine_of_not_ends Section.noConfusion hinside.2]
    rfl
  · rw [if_neg hinside, Option.bind_eq_none_iff]
    intro entry hentry
    cases entry with
    | active guid name value =>
        obtain ⟨hplace, hend⟩ := SolutionEntry.place_of_ofLine_active hentry
        exact absurd ⟨hopen.1 hplace, hend⟩ hinside
    | project => rfl
    | configuration => rfl
    | malformed => rfl

/-- The active configurations of a solution are those of the lines in the sections about them. -/
theorem active?_ofLines (before lines : List String) :
    (SolutionEntry.ofLines (Section.outside.after before) lines).filterMap active? =
      activeIn .projectConfigurations (linesIn .projectConfigurations before lines) := by
  induction lines generalizing before with
  | nil => rfl
  | cons line rest ih =>
      have hafter : (SolutionEntry.ofLine (Section.outside.after before) line).2 =
          Section.outside.after (before ++ [line]) := by
        rw [Section.after_append]
        rfl
      have hline (entry : Option SolutionEntry) :
          entry.toList.filterMap active? = (entry.bind active?).toList := by
        cases entry with
        | none => rfl
        | some entry => cases h : active? entry <;> simp [h]
      rw [SolutionEntry.ofLines_cons, List.filterMap_append, hline, active?_ofLine, hafter, ih,
        linesIn]
      by_cases hinside : Inside .projectConfigurations before line
      · rw [if_pos hinside, if_pos hinside, activeIn, activeIn, List.filterMap_cons]
        cases (SolutionEntry.active? line).bind active? with
        | none => rfl
        | some entry => rfl
      · rw [if_neg hinside, if_neg hinside]
        rfl

/-! ### Look-ups -/

/-- What a line says about this project in this configuration of the solution. -/
def answer? (guid configuration line : String) : Option String :=
  (((SolutionEntry.active? line).bind active?).filter fun (key, name, _) =>
    key == projectKey guid && name == configuration).map (·.2.2)

theorem answer?_eq_some_iff {guid configuration line value : String} :
    answer? guid configuration line = some value ↔ Answers guid configuration line value := by
  have hactive {key name value : String} :
      (SolutionEntry.active? line).bind active? = some (key, name, value) ↔
        ∃ other, projectKey other = key ∧ Activates line other name value := by
    rw [Option.bind_eq_some_iff]
    constructor
    · rintro ⟨entry, hread, hentry⟩
      obtain ⟨other, name', value', rfl⟩ := SolutionEntry.exists_of_active? hread
      obtain ⟨rfl, rfl, rfl⟩ : projectKey other = key ∧ name' = name ∧ value' = value := by
        simpa [active?] using hentry
      exact ⟨other, rfl, SolutionEntry.active?_eq_some_iff.1 hread⟩
    · rintro ⟨other, rfl, hread⟩
      exact ⟨_, SolutionEntry.active?_eq_some_iff.2 hread, rfl⟩
  simp only [answer?, Option.map_eq_some_iff, Option.filter_eq_some_iff, Bool.and_eq_true,
    beq_iff_eq, Prod.exists, hactive]
  constructor
  · rintro ⟨key, name, value, ⟨⟨other, hkey, hline⟩, hkeys, rfl⟩, rfl⟩
    exact ⟨other, projectKey_eq_iff.1 (hkey.trans hkeys), hline⟩
  · rintro ⟨other, hsame, hline⟩
    exact ⟨_, _, _, ⟨⟨other, rfl, hline⟩, projectKey_eq_iff.2 hsame, rfl⟩, rfl⟩

theorem lastAbout_activeIn (lines : List String) (guid configuration : String) :
    lastAbout (activeIn .projectConfigurations lines) guid configuration =
      (lines.filterMap (answer? guid configuration)).getLast? := by
  rw [lastAbout, activeIn, List.filter_filterMap, ← List.getLast?_map, List.map_filterMap]
  rfl

theorem projectConfiguration_ofLines (path : String) (lines : List String)
    (guid configuration : String) : (ofLines path lines).projectConfiguration guid configuration =
      (((linesIn .projectConfigurations [] lines).filterMap
        (answer? guid configuration)).getLast?).getD "" := by
  rw [projectConfiguration_eq, ofLines, active_ofEntries, ← lastAbout_activeIn,
    ← active?_ofLines]
  rfl

/-- Only lines that say which configuration is active answer. -/
theorem filterMap_answer?_filter (lines : List String) (guid configuration : String) :
    (lines.filter (IsActivation ·)).filterMap (answer? guid configuration) =
      lines.filterMap (answer? guid configuration) := by
  rw [List.filterMap_filter]
  refine List.filterMap_congr fun line _ => ?_
  by_cases hline : IsActivation line
  · rw [if_pos (decide_eq_true hline)]
  · rw [if_neg (by simpa using hline), eq_comm, Option.eq_none_iff_forall_ne_some]
    intro value hvalue
    obtain ⟨other, -, hline'⟩ := answer?_eq_some_iff.1 hvalue
    exact hline ⟨_, _, _, hline'⟩

/-- The configuration of a project that is active in a configuration of the solution is what the
last line in the sections about projects says that is about the same project and the same
configuration, and nothing where there is no such line. Two texts that hold the same lines about
active configurations in these sections, in the same order, answer alike. So a line can be left out
that opens and ends no section and is none of those. -/
theorem projectConfiguration_last_line (path text guid configuration : String) :
    (LastGives (Answers guid configuration) (projectLines text)
        ((parse path text).projectConfiguration guid configuration) ∨
      NoneGives (Answers guid configuration) (projectLines text) ∧
        (parse path text).projectConfiguration guid configuration = "") ∧
    (∀ otherPath otherText, (projectLines otherText).filter (IsActivation ·) =
        (projectLines text).filter (IsActivation ·) →
      (parse otherPath otherText).projectConfiguration guid configuration =
        (parse path text).projectConfiguration guid configuration) ∧
    ∀ before line later, linesOf text = before ++ line :: later →
      (∀ place, OpenAfter place (before ++ [line]) ↔ OpenAfter place before) →
      ¬ (Inside .projectConfigurations before line ∧ IsActivation line) →
      (ofLines path (before ++ later)).projectConfiguration guid configuration =
        (parse path text).projectConfiguration guid configuration := by
  refine ⟨?_, ?_, ?_⟩
  · rw [parse_eq, projectConfiguration_ofLines, ← projectLines]
    cases hlast : ((projectLines text).filterMap (answer? guid configuration)).getLast? with
    | none =>
        exact .inr ⟨(getLast?_filterMap_eq_none_iff fun _ _ => answer?_eq_some_iff).1 hlast, rfl⟩
    | some value =>
        exact .inl ((getLast?_filterMap_eq_some_iff fun _ _ => answer?_eq_some_iff).1 hlast)
  · intro otherPath otherText h
    rw [parse_eq, parse_eq, projectConfiguration_ofLines, projectConfiguration_ofLines,
      ← projectLines, ← projectLines, ← filterMap_answer?_filter, h, filterMap_answer?_filter]
  · intro before line later hlines hopen hline
    rw [parse_eq, hlines, projectConfiguration_ofLines, projectConfiguration_ofLines,
      ← filterMap_answer?_filter, ← filterMap_answer?_filter (linesIn _ _ (_ ++ _ :: _)),
      linesIn_append, linesIn_append, List.nil_append, linesIn, linesIn_congr _ hopen]
    by_cases hinside : Inside .projectConfigurations before line
    · have hnot : ¬ IsActivation line := fun h => hline ⟨hinside, h⟩
      rw [if_pos hinside, List.filter_append, List.filter_append,
        List.filter_cons_of_neg (by simpa using hnot)]
    · rw [if_neg hinside]

/-- A section with a line about a configuration whose name holds a dot, and one of another kind. -/
def dottedText : String :=
  "GlobalSection(ProjectConfigurationPlatforms)\nA.D.1.ActiveCfg = R\nA.D.1.Build.0 = X\n" ++
    "EndGlobalSection"

theorem linesOf_dottedText : linesOf dottedText =
    ["GlobalSection(ProjectConfigurationPlatforms)", "A.D.1.ActiveCfg = R", "A.D.1.Build.0 = X",
      "EndGlobalSection"] :=
  linesOf_of_eq String.ofList_append.symm (by decide +kernel)

theorem projectConfiguration_last_line_dottedText :
    (parse "a.sln" dottedText).projectConfiguration "a" "D.1" = "R" ∧
      (ofLines "a.sln" ["GlobalSection(ProjectConfigurationPlatforms)", "A.D.1.ActiveCfg = R",
        "EndGlobalSection"]).projectConfiguration "a" "D.1" =
          (parse "a.sln" dottedText).projectConfiguration "a" "D.1" := by
  have hvalue : (parse "a.sln" dottedText).projectConfiguration "a" "D.1" = "R" := by
    rw [parse_eq, linesOf_dottedText]
    decide +kernel
  have hopens (place : Section) : ¬ Opens place "A.D.1.Build.0 = X" := by
    rintro (h | h)
    · exact absurd h (by decide)
    · exact absurd h (by decide)
  have hline : ¬ IsActivation "A.D.1.Build.0 = X" := by decide +kernel
  obtain ⟨-, -, hleft⟩ := projectConfiguration_last_line "a.sln" dottedText "a" "D.1"
  exact ⟨hvalue, hleft [_, _] _ [_] linesOf_dottedText
    (fun place => openAfter_concat_iff (by decide) hopens) fun h => hline h.2⟩

end Solution

end BuildAtlas.VisualStudio
