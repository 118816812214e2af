import BuildAtlas.Proofs.Text
import BuildAtlas.Proofs.VisualStudio.Solution

/-!
# BuildAtlas.Proofs.VisualStudio.Sections

The sections in the text of a solution, and which one is open at a line.

Only a line that begins `EndGlobalSection` ends a section. A section that lacks this line is not
ended by what follows it: up to the next such line, and so across the headers of other sections and
the end of the global part, every line is read as a line of the section that is open
(`ofLines_inside`). From that line on the text is read as if nothing stood before it. Which section
is open is told by the lines alone: of those since the last end, the first header has opened it
(`after_eq_iff`).
-/

namespace BuildAtlas.VisualStudio

/-! ### Lines -/

/-- A line begins with a text. -/
def Starts (start line : String) : Prop :=
  start.toList <+: line.toList

instance (start line : String) : Decidable (Starts start line) :=
  inferInstanceAs (Decidable (start.toList <+: line.toList))

/-- A line ends a section. -/
def Ends (line : String) : Prop :=
  Starts "EndGlobalSection" line

instance (line : String) : Decidable (Ends line) :=
  inferInstanceAs (Decidable (Starts "EndGlobalSection" line))

/-- A line is the header of a section about configurations. -/
inductive Opens : Section → String → Prop
  | solutionConfigurations {line : String}
      (h : Starts "GlobalSection(SolutionConfigurationPlatforms)" line) :
      Opens .solutionConfigurations line
  | projectConfigurations {line : String}
      (h : Starts "GlobalSection(ProjectConfigurationPlatforms)" line) :
      Opens .projectConfigurations line

/-- The lines up to the next one that ends a section. -/
def upToEnd (lines : List String) : List String :=
  lines.takeWhile (¬ Ends ·)

/-- The lines from the next one on that ends a section. -/
def fromEnd (lines : List String) : List String :=
  lines.dropWhile (¬ Ends ·)

/-- After these lines a section is open: of the lines since the last one that ends a section, the
first one that opens a section opens this one. -/
def OpenAfter (place : Section) (lines : List String) : Prop :=
  ∃ front skipped header body, lines = front ++ (skipped ++ header :: body) ∧
    (∀ last, front.getLast? = some last → Ends last) ∧
    (∀ line ∈ skipped ++ header :: body, ¬ Ends line) ∧
    (∀ line ∈ skipped, ∀ other, ¬ Opens other line) ∧ Opens place header

theorem Starts.not_starts {start other line : String} (h : Starts start line)
    (hstart : ¬ Starts start other) (hother : ¬ Starts other start) : ¬ Starts other line := by
  intro hline
  rcases List.prefix_or_prefix_of_prefix h hline with hprefix | hprefix
  · exact hstart hprefix
  · exact hother hprefix

theorem Opens.not_ends {place : Section} {line : String} (h : Opens place line) : ¬ Ends line := by
  cases h with
  | solutionConfigurations h => exact h.not_starts (by decide) (by decide)
  | projectConfigurations h => exact h.not_starts (by decide) (by decide)

theorem Opens.not_project {place : Section} {line : String} (h : Opens place line) :
    ¬ Starts "Project(" line := by
  cases h with
  | solutionConfigurations h => exact h.not_starts (by decide) (by decide)
  | projectConfigurations h => exact h.not_starts (by decide) (by decide)

theorem Opens.ne_outside {place : Section} {line : String} (h : Opens place line) :
    place ≠ .outside := by
  cases h with
  | solutionConfigurations h => exact Section.noConfusion
  | projectConfigurations h => exact Section.noConfusion

theorem OpenAfter.ne_outside {place : Section} {lines : List String} (h : OpenAfter place lines) :
    place ≠ .outside := by
  obtain ⟨_, _, _, _, -, -, -, -, hheader⟩ := h
  exact hheader.ne_outside

theorem Opens.unique {place other : Section} {line : String} (h : Opens place line)
    (hother : Opens other line) : place = other := by
  cases h with
  | solutionConfigurations h =>
      cases hother with
      | solutionConfigurations _ => rfl
      | projectConfigurations hother =>
          exact absurd hother (h.not_starts (by decide) (by decide))
  | projectConfigurations h =>
      cases hother with
      | projectConfigurations _ => rfl
      | solutionConfigurations hother =>
          exact absurd hother (h.not_starts (by decide) (by decide))

/-! ### One line -/

namespace Section

/-- The entry that a line makes inside of a section. -/
def gives? : Section → String → Option SolutionEntry
  | .outside, _ => none
  | .solutionConfigurations, line => SolutionEntry.configuration? line
  | .projectConfigurations, line => SolutionEntry.active? line

theorem gives?_solutionConfigurations (line : String) :
    solutionConfigurations.gives? line = SolutionEntry.configuration? line := rfl

theorem gives?_projectConfigurations (line : String) :
    projectConfigurations.gives? line = SolutionEntry.active? line := rfl

/-- The section after lines. -/
def after (place : Section) (lines : List String) : Section :=
  lines.foldl (fun place line => (SolutionEntry.ofLine place line).2) place

theorem after_append (place : Section) (front back : List String) :
    after place (front ++ back) = after (after place front) back :=
  List.foldl_append

end Section

namespace SolutionEntry

theorem begins_iff {start line : String} : begins start line = true ↔ Starts start line := by
  rw [begins, Text.dropStart?, Option.isSome_map, Option.isSome_iff_exists]
  constructor
  · rintro ⟨rest, h⟩
    exact ⟨rest, (Text.after?_eq_some_iff.1 h).symm⟩
  · rintro ⟨rest, h⟩
    exact ⟨rest, Text.after?_eq_some_iff.2 h.symm⟩

theorem begins_eq_false_iff {start line : String} :
    begins start line = false ↔ ¬ Starts start line := by
  rw [← begins_iff, Bool.not_eq_true]

theorem opened_of_opens {place : Section} {line : String} (h : Opens place line) :
    opened line = place := by
  cases h with
  | solutionConfigurations h => rw [opened, if_pos (begins_iff.2 h)]
  | projectConfigurations h =>
      have hother : ¬ Starts "GlobalSection(SolutionConfigurationPlatforms)" line :=
        h.not_starts (by decide) (by decide)
      rw [opened, if_neg (mt begins_iff.1 hother), if_pos (begins_iff.2 h)]

theorem opens_opened {line : String} (h : opened line ≠ .outside) : Opens (opened line) line := by
  rw [opened] at h ⊢
  by_cases hsolution : begins "GlobalSection(SolutionConfigurationPlatforms)" line = true
  · rw [if_pos hsolution]
    exact .solutionConfigurations (begins_iff.1 hsolution)
  · rw [if_neg hsolution] at h ⊢
    by_cases hproject : begins "GlobalSection(ProjectConfigurationPlatforms)" line = true
    · rw [if_pos hproject]
      exact .projectConfigurations (begins_iff.1 hproject)
    · rw [if_neg hproject] at h
      exact absurd rfl h

theorem ofLine_of_ends {place : Section} {line : String} (h : Ends line) :
    ofLine place line = (none, .outside) := by
  rw [ofLine.eq_def, if_pos (begins_iff.2 h)]

theorem ofLine_of_not_ends {place : Section} {line : String} (hplace : place ≠ .outside)
    (h : ¬ Ends line) : ofLine place line = (place.gives? line, place) := by
  rw [ofLine.eq_def, if_neg (mt begins_iff.1 h)]
  cases place with
  | outside => exact absurd rfl hplace
  | solutionConfigurations => rfl
  | projectConfigurations => rfl

theorem ofLine_outside_of_project {line : String} (h : Starts "Project(" line) :
    ofLine .outside line = (some ((project? line).getD (.malformed line)), .outside) := by
  have hend : ¬ Ends line := h.not_starts (by decide) (by decide)
  rw [ofLine.eq_def, if_neg (mt begins_iff.1 hend)]
  exact if_pos (begins_iff.2 h)

theorem ofLine_outside_of_not_project {line : String} (hend : ¬ Ends line)
    (h : ¬ Starts "Project(" line) : ofLine .outside line = (none, opened line) := by
  rw [ofLine.eq_def, if_neg (mt begins_iff.1 hend)]
  exact if_neg (mt begins_iff.1 h)

theorem ofLine_of_opens {place : Section} {line : String} (h : Opens place line) :
    ofLine .outside line = (none, place) := by
  rw [ofLine_outside_of_not_project h.not_ends h.not_project, opened_of_opens h]

/-- Outside of the sections only a header makes a difference for what follows. -/
theorem ofLine_outside_of_not_opens {line : String} (h : ∀ place, ¬ Opens place line) :
    (ofLine .outside line).2 = .outside := by
  by_cases hend : Ends line
  · rw [ofLine_of_ends hend]
  · by_cases hproject : Starts "Project(" line
    · rw [ofLine_outside_of_project hproject]
    · rw [ofLine_outside_of_not_project hend hproject]
      exact Decidable.not_not.1 fun hne => h _ (opens_opened hne)

/-- Inside of the sections no line lists a project. -/
theorem gives?_cases {place : Section} {line : String} {entry : SolutionEntry}
    (h : place.gives? line = some entry) :
    (place = .solutionConfigurations ∧ ∃ name, entry = .configuration name) ∨
      place = .projectConfigurations ∧ ∃ guid name value, entry = .active guid name value := by
  cases place with
  | outside => exact nomatch h
  | solutionConfigurations =>
      rw [Section.gives?_solutionConfigurations] at h
      exact .inl ⟨rfl, exists_of_configuration? h⟩
  | projectConfigurations =>
      rw [Section.gives?_projectConfigurations] at h
      exact .inr ⟨rfl, exists_of_active? h⟩

/-! ### The section that is open -/

theorem after_inside {place : Section} (hplace : place ≠ .outside) {lines : List String}
    (h : ∀ line ∈ lines, ¬ Ends line) : place.after lines = place := by
  induction lines with
  | nil => rfl
  | cons line rest ih =>
      rw [List.forall_mem_cons] at h
      rw [Section.after, List.foldl_cons, ofLine_of_not_ends hplace h.1]
      exact ih h.2

theorem after_of_ends {place : Section} {front : List String} {last : String} (h : Ends last) :
    place.after (front ++ [last]) = .outside := by
  rw [Section.after_append, Section.after, List.foldl_cons, List.foldl_nil, ofLine_of_ends h]

/-- Where no line ends a section, the first header opens the one that stays. -/
theorem after_eq_iff_of_not_ends {place : Section} (hplace : place ≠ .outside)
    {lines : List String} (h : ∀ line ∈ lines, ¬ Ends line) :
    Section.outside.after lines = place ↔ ∃ skipped header body,
      lines = skipped ++ header :: body ∧ (∀ line ∈ skipped, ∀ other, ¬ Opens other line) ∧
        Opens place header := by
  induction lines with
  | nil =>
      constructor
      · exact fun hplace' => absurd hplace'.symm hplace
      · rintro ⟨skipped, header, body, hlines, -⟩
        simp at hlines
  | cons line rest ih =>
      rw [List.forall_mem_cons] at h
      by_cases hopens : ∃ other, Opens other line
      · obtain ⟨other, hopens⟩ := hopens
        rw [Section.after, List.foldl_cons, ofLine_of_opens hopens]
        change other.after rest = place ↔ _
        rw [after_inside hopens.ne_outside h.2]
        constructor
        · rintro rfl
          exact ⟨[], line, rest, rfl, by simp, hopens⟩
        · rintro ⟨skipped, header, body, hlines, hskipped, hheader⟩
          cases skipped with
          | nil =>
              obtain ⟨rfl, -⟩ := List.cons.inj hlines
              exact hopens.unique hheader
          | cons first skipped =>
              obtain ⟨rfl, -⟩ := List.cons.inj hlines
              exact absurd hopens (hskipped line List.mem_cons_self other)
      · rw [not_exists] at hopens
        rw [Section.after, List.foldl_cons, ofLine_outside_of_not_opens hopens]
        refine (ih h.2).trans ⟨?_, ?_⟩
        · rintro ⟨skipped, header, body, rfl, hskipped, hheader⟩
          exact ⟨line :: skipped, header, body, rfl, List.forall_mem_cons.2 ⟨hopens, hskipped⟩,
            hheader⟩
        · rintro ⟨skipped, header, body, hlines, hskipped, hheader⟩
          cases skipped with
          | nil =>
              obtain ⟨rfl, -⟩ := List.cons.inj hlines
              exact absurd hheader (hopens place)
          | cons first skipped =>
              obtain ⟨rfl, rfl⟩ := List.cons.inj hlines
              exact ⟨skipped, header, body, rfl, (List.forall_mem_cons.1 hskipped).2, hheader⟩

/-- Lines are parted at the last one that ends a section. -/
theorem exists_last_end (lines : List String) : ∃ front rest, lines = front ++ rest ∧
    (∀ last, front.getLast? = some last → Ends last) ∧ ∀ line ∈ rest, ¬ Ends line := by
  induction lines using List.reverseRecOn with
  | nil => exact ⟨[], [], rfl, by simp, by simp⟩
  | append_singleton lines line ih =>
      by_cases hend : Ends line
      · exact ⟨lines ++ [line], [], by simp, by simpa using hend, by simp⟩
      · obtain ⟨front, rest, rfl, hfront, hrest⟩ := ih
        refine ⟨front, rest ++ [line], by simp, hfront, ?_⟩
        rw [List.forall_mem_append]
        exact ⟨hrest, by simpa using hend⟩

theorem after_front {front : List String} (h : ∀ last, front.getLast? = some last → Ends last) :
    Section.outside.after front = .outside := by
  cases front using List.reverseRecOn with
  | nil => rfl
  | append_singleton front last => exact after_of_ends (h last (by simp))

theorem after_eq_iff {place : Section} (hplace : place ≠ .outside) {lines : List String} :
    Section.outside.after lines = place ↔ OpenAfter place lines := by
  constructor
  · intro h
    obtain ⟨front, rest, rfl, hfront, hrest⟩ := exists_last_end lines
    rw [Section.after_append, after_front hfront, after_eq_iff_of_not_ends hplace hrest] at h
    obtain ⟨skipped, header, body, rfl, hskipped, hheader⟩ := h
    exact ⟨front, skipped, header, body, rfl, hfront, hrest, hskipped, hheader⟩
  · rintro ⟨front, skipped, header, body, rfl, hfront, hrest, hskipped, hheader⟩
    rw [Section.after_append, after_front hfront, after_eq_iff_of_not_ends hplace hrest]
    exact ⟨skipped, header, body, rfl, hskipped, hheader⟩

theorem after_eq_outside_iff {lines : List String} :
    Section.outside.after lines = .outside ↔ ∀ place, ¬ OpenAfter place lines := by
  constructor
  · intro h place hopen
    exact hopen.ne_outside (((after_eq_iff hopen.ne_outside).2 hopen).symm.trans h)
  · intro h
    by_contra hne
    exact h _ ((after_eq_iff hne).1 rfl)

/-! ### Entries -/

theorem ofLines_cons (place : Section) (line : String) (rest : List String) :
    ofLines place (line :: rest) =
      (ofLine place line).1.toList ++ ofLines (ofLine place line).2 rest := rfl

theorem ofLines_singleton (place : Section) (line : String) :
    ofLines place [line] = (ofLine place line).1.toList :=
  List.append_nil _

theorem ofLines_append (place : Section) (front back : List String) :
    ofLines place (front ++ back) = ofLines place front ++ ofLines (place.after front) back := by
  induction front generalizing place with
  | nil => rfl
  | cons line rest ih =>
      rw [List.cons_append, ofLines_cons, ofLines_cons, ih, List.append_assoc]
      rfl

/-- An open section takes the lines up to the next end. What follows is read as if it stood
alone. -/
theorem ofLines_inside {place : Section} (hplace : place ≠ .outside) (lines : List String) :
    ofLines place lines =
      (upToEnd lines).filterMap place.gives? ++ ofLines .outside (fromEnd lines) := by
  induction lines with
  | nil => rfl
  | cons line rest ih =>
      by_cases hend : Ends line
      · have htaken : upToEnd (line :: rest) = [] :=
          List.takeWhile_cons_of_neg (by simpa using hend)
        have hleft : fromEnd (line :: rest) = line :: rest :=
          List.dropWhile_cons_of_neg (by simpa using hend)
        rw [htaken, hleft, ofLines_cons, ofLines_cons, ofLine_of_ends hend, ofLine_of_ends hend]
        rfl
      · have htaken : upToEnd (line :: rest) = line :: upToEnd rest :=
          List.takeWhile_cons_of_pos (by simpa using hend)
        have hleft : fromEnd (line :: rest) = fromEnd rest :=
          List.dropWhile_cons_of_pos (by simpa using hend)
        rw [htaken, hleft, ofLines_cons, ofLine_of_not_ends hplace hend, ih, List.filterMap_cons,
          ← List.append_assoc]
        cases place.gives? line with
        | none => rfl
        | some entry => rfl

theorem mem_ofLines {place : Section} {lines : List String} {entry : SolutionEntry} :
    entry ∈ ofLines place lines ↔ ∃ before next later, lines = before ++ next :: later ∧
      (ofLine (place.after before) next).1 = some entry := by
  induction lines generalizing place with
  | nil => simp [ofLines]
  | cons line rest ih =>
      rw [ofLines_cons, List.mem_append, Option.mem_toList, ih]
      constructor
      · rintro (h | ⟨before, next, later, rfl, h⟩)
        · exact ⟨[], line, rest, rfl, h⟩
        · exact ⟨line :: before, next, later, rfl, h⟩
      · rintro ⟨before, next, later, hlines, h⟩
        cases before with
        | nil =>
            obtain ⟨rfl, -⟩ := List.cons.inj hlines
            exact .inl h
        | cons first before =>
            obtain ⟨rfl, rfl⟩ := List.cons.inj hlines
            exact .inr ⟨before, next, later, rfl, h⟩

theorem ofLine_eq_configuration_iff {place : Section} {line name : String} :
    (ofLine place line).1 = some (.configuration name) ↔ place = .solutionConfigurations ∧
      ¬ Ends line ∧ configuration? line = some (.configuration name) := by
  constructor
  · intro h
    obtain ⟨hplace, hend, hname⟩ := configuration_of_ofLine h
    exact ⟨hplace, begins_eq_false_iff.1 hend, hname⟩
  · rintro ⟨rfl, hend, hname⟩
    rw [ofLine_of_not_ends Section.noConfusion hend, Section.gives?_solutionConfigurations, hname]

/-- The names in a text are those of the lines at which a section about solution configurations is
open. -/
theorem configuration_mem_ofLines_iff {lines : List String} {name : String} :
    configuration name ∈ ofLines .outside lines ↔ ∃ before next later,
      lines = before ++ next :: later ∧ OpenAfter .solutionConfigurations before ∧ ¬ Ends next ∧
        configuration? next = some (.configuration name) := by
  have hopen {before : List String} : Section.outside.after before = .solutionConfigurations ↔
      OpenAfter .solutionConfigurations before := after_eq_iff Section.noConfusion
  simp only [mem_ofLines, ofLine_eq_configuration_iff, hopen]

end SolutionEntry

/-! ### Lines of a text -/

/-- The lines of a text, each without the blanks around it. -/
def linesOf (text : String) : List String :=
  (Text.splitOn '\n' (Text.withoutMarks text)).map Text.trim

/-- The lines of a text with these characters. -/
theorem linesOf_of_eq {text : String} {cs : List Char} {lines : List String}
    (htext : text = .ofList cs)
    (hlines : ((cs.dropWhile (· == '\uFEFF')).splitOn '\n').map
      (fun line => String.ofList (Text.trimWhere Text.isBlank line)) = lines) :
    linesOf text = lines := by
  change (Text.splitOn '\n' (Text.withoutMarks text)).map Text.trim = lines
  rw [Text.withoutMarks, Text.splitOn, htext, String.toList_ofList, String.toList_ofList,
    List.map_map, ← hlines]
  refine List.map_congr_left fun line _ => ?_
  rw [Function.comp_apply, Text.trim, Text.trimMatches, String.toList_ofList]

namespace Solution

/-- The solution that lines describe. -/
def ofLines (path : String) (lines : List String) : Solution :=
  ofEntries path (SolutionEntry.ofLines .outside lines)

theorem parse_eq (path text : String) : parse path text = ofLines path (linesOf text) := rfl

end Solution

end BuildAtlas.VisualStudio
