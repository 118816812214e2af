import BuildAtlas.Proofs.VisualStudio.Sections
import Mathlib.Data.List.Forall2

/-!
# BuildAtlas.Proofs.VisualStudio.Blocks

What in the text of a solution does not matter: the order of unlike blocks, the other lines between
them, and how the lines are laid out.

A line that begins like a project is a block, and so is a section about configurations from its
header to its end. Behind a block no section is open, so blocks are read one by one
(`ofLines_blocks`), and each kind of block alone fills one part of the solution
(`Block.kind_of_mem_entries`). Only the blocks of each kind and their order count, then
(`parse_eq_of_blocks`). Every text that leaves no section open is written from blocks
(`exists_blocks_of_text`). A byte order mark counts as layout in front of the text and nowhere else,
which is why a line that begins with one cannot be moved there.
-/

namespace BuildAtlas.VisualStudio

/-! ### Blocks -/

/-- The kinds of blocks that the lines of a solution form. -/
inductive BlockKind
  | project
  | solutionConfigurations
  | projectConfigurations
  | other
  deriving DecidableEq

/-- The section that a block of this kind is. -/
def BlockKind.place : BlockKind → Section
  | .solutionConfigurations => .solutionConfigurations
  | .projectConfigurations => .projectConfigurations
  | .project | .other => .outside

/-- Lines form a block. The blanks around them do not matter. -/
inductive Forms : BlockKind → List String → Prop
  | project {line : String} (h : Starts "Project(" (Text.trim line)) : Forms .project [line]
  /-- A section with its header and its end, and no other end in it. -/
  | terminated {kind : BlockKind} {header stop : String} {body : List String}
      (hheader : Opens kind.place (Text.trim header))
      (hbody : ∀ line ∈ body, ¬ Ends (Text.trim line)) (hstop : Ends (Text.trim stop)) :
      Forms kind (header :: body ++ [stop])
  | other {line : String} (hproject : ¬ Starts "Project(" (Text.trim line))
      (hheader : ∀ place, ¬ Opens place (Text.trim line)) : Forms .other [line]

/-- A block of lines. -/
structure Block where
  kind : BlockKind
  lines : List String
  forms : Forms kind lines

/-- The kind of blocks in which an entry stands, where it counts. -/
def SolutionEntry.kind : SolutionEntry → BlockKind
  | .project .. => .project
  | .configuration _ => .solutionConfigurations
  | .active .. => .projectConfigurations
  | .malformed _ => .other

namespace SolutionEntry

theorem kind_of_project? {line : String} {entry : SolutionEntry} (h : project? line = some entry) :
    entry.kind = .project := by
  obtain ⟨name, path, guid, rfl⟩ := exists_of_project? h
  rfl

theorem kind_of_gives? {kind : BlockKind} {line : String} {entry : SolutionEntry}
    (h : kind.place.gives? line = some entry) : entry.kind = kind := by
  cases kind with
  | project => exact nomatch h
  | other => exact nomatch h
  | solutionConfigurations =>
      rcases gives?_cases h with ⟨-, name, rfl⟩ | ⟨hplace, -⟩
      · rfl
      · exact nomatch hplace
  | projectConfigurations =>
      rcases gives?_cases h with ⟨hplace, -⟩ | ⟨-, guid, name, value, rfl⟩
      · exact nomatch hplace
      · rfl

/-- A section that is ended gives the entries of its lines. -/
theorem ofLines_terminated {place : Section} (hplace : place ≠ .outside) {body : List String}
    {stop : String} (hbody : ∀ line ∈ body, ¬ Ends line) (hstop : Ends stop) :
    ofLines place (body ++ [stop]) = body.filterMap place.gives? := by
  have htaken : upToEnd body = body := List.takeWhile_eq_self_iff.2 (by simpa using hbody)
  have hleft : fromEnd body = [] := List.dropWhile_eq_nil_iff.2 (by simpa using hbody)
  rw [ofLines_append, ofLines_inside hplace, htaken, hleft, ofLines_singleton,
    ofLine_of_ends hstop]
  exact (List.append_nil _).trans (List.append_nil _)

/-- Outside of the sections only a line that begins like a project gives something. -/
theorem ofLine_outside_of_other {line : String} (hproject : ¬ Starts "Project(" line) :
    (ofLine .outside line).1 = none := by
  by_cases hend : Ends line
  · rw [ofLine_of_ends hend]
  · rw [ofLine_outside_of_not_project hend hproject]

end SolutionEntry

namespace Block

/-- The entries of a block. -/
def entries (block : Block) : List SolutionEntry :=
  SolutionEntry.ofLines .outside (block.lines.map Text.trim)

/-- Behind a block no section is open. -/
theorem after_lines (block : Block) :
    Section.outside.after (block.lines.map Text.trim) = .outside := by
  obtain ⟨kind, lines, hforms⟩ := block
  cases hforms with
  | project h =>
      change (SolutionEntry.ofLine .outside _).2 = _
      rw [SolutionEntry.ofLine_outside_of_project h]
  | terminated hheader hbody hstop =>
      rw [List.map_append]
      exact SolutionEntry.after_of_ends hstop
  | other hproject hheader => exact SolutionEntry.ofLine_outside_of_not_opens hheader

/-- A block gives entries of its own kind only, apart from such as do not count. -/
theorem kind_of_mem_entries {block : Block} {entry : SolutionEntry} (h : entry ∈ block.entries) :
    entry.kind = block.kind ∨ entry.kind = .other := by
  obtain ⟨kind, lines, hforms⟩ := block
  cases hforms with
  | @project line hproject =>
      rw [entries, List.map_singleton, SolutionEntry.ofLines_singleton,
        SolutionEntry.ofLine_outside_of_project hproject, Option.toList_some,
        List.mem_singleton] at h
      rw [h]
      cases hread : SolutionEntry.project? (Text.trim line) with
      | none => exact .inr rfl
      | some entry => exact .inl (SolutionEntry.kind_of_project? hread)
  | @terminated kind header stop body hheader hbody hstop =>
      have hinside : ∀ line ∈ body.map Text.trim, ¬ Ends line := by
        simpa using hbody
      rw [entries, List.map_append, List.map_cons, List.cons_append, SolutionEntry.ofLines_cons,
        SolutionEntry.ofLine_of_opens hheader, List.map_singleton,
        SolutionEntry.ofLines_terminated hheader.ne_outside hinside hstop] at h
      obtain ⟨line, -, hline⟩ := List.mem_filterMap.1 h
      exact .inl (SolutionEntry.kind_of_gives? hline)
  | other hproject hheader =>
      rw [entries, List.map_singleton, SolutionEntry.ofLines_singleton,
        SolutionEntry.ofLine_outside_of_other hproject] at h
      exact absurd h List.not_mem_nil

end Block

theorem ofLines_blocks (blocks : List Block) :
    SolutionEntry.ofLines .outside ((blocks.flatMap (·.lines)).map Text.trim) =
      blocks.flatMap (·.entries) := by
  induction blocks with
  | nil => rfl
  | cons block rest ih =>
      rw [List.flatMap_cons, List.map_append, SolutionEntry.ofLines_append, block.after_lines, ih]
      rfl

theorem Opens.exists_kind {place : Section} {line : String} (h : Opens place line) :
    ∃ kind : BlockKind, kind.place = place := by
  cases h with
  | solutionConfigurations _ => exact ⟨.solutionConfigurations, rfl⟩
  | projectConfigurations _ => exact ⟨.projectConfigurations, rfl⟩

/-- Lines that leave no section open are those of blocks. The induction is on the number of lines,
as a section takes several. -/
theorem exists_blocks {lines : List String}
    (h : Section.outside.after (lines.map Text.trim) = .outside) :
    ∃ blocks : List Block, blocks.flatMap (·.lines) = lines := by
  induction hlength : lines.length using Nat.strongRecOn generalizing lines with
  | ind n ih =>
      cases lines with
      | nil => exact ⟨[], rfl⟩
      | cons line rest =>
          rw [List.map_cons, Section.after, List.foldl_cons] at h
          by_cases hopens : ∃ place, Opens place (Text.trim line)
          · obtain ⟨place, hopens⟩ := hopens
            rw [SolutionEntry.ofLine_of_opens hopens] at h
            change place.after (rest.map Text.trim) = .outside at h
            cases hfound : rest.find? (fun line => decide (Ends (Text.trim line))) with
            | none =>
                -- without an end the section would stay open
                have hinside : ∀ line ∈ rest.map Text.trim, ¬ Ends line := by
                  simpa using hfound
                rw [SolutionEntry.after_inside hopens.ne_outside hinside] at h
                exact absurd h hopens.ne_outside
            | some stop =>
                obtain ⟨hstop, body, later, rfl, hbody⟩ := List.find?_eq_some_iff_append.1 hfound
                rw [decide_eq_true_eq] at hstop
                obtain ⟨kind, rfl⟩ := hopens.exists_kind
                have hlater : Section.outside.after (later.map Text.trim) = .outside := by
                  rwa [List.append_cons, List.map_append, Section.after_append, List.map_append,
                    List.map_singleton, SolutionEntry.after_of_ends hstop] at h
                have hshorter : later.length < n := by
                  rw [← hlength, List.length_cons, List.length_append, List.length_cons]
                  omega
                obtain ⟨blocks, rfl⟩ := ih _ hshorter hlater rfl
                have hforms : Forms kind (line :: body ++ [stop]) :=
                  .terminated hopens (by simpa using hbody) hstop
                exact ⟨⟨kind, _, hforms⟩ :: blocks, by simp⟩
          · rw [not_exists] at hopens
            rw [SolutionEntry.ofLine_outside_of_not_opens hopens] at h
            have hshorter : rest.length < n := by
              rw [← hlength]
              exact Nat.lt_succ_self _
            obtain ⟨blocks, rfl⟩ := ih _ hshorter h rfl
            by_cases hproject : Starts "Project(" (Text.trim line)
            · exact ⟨⟨.project, [line], .project hproject⟩ :: blocks, rfl⟩
            · exact ⟨⟨.other, [line], .other hproject hopens⟩ :: blocks, rfl⟩

/-! ### Parts of a solution -/

theorem filterMap_eq_filterMap_filter {α β : Type} {f : α → Option β} {p : α → Bool}
    (h : ∀ a, p a = false → f a = none) (as : List α) :
    as.filterMap f = (as.filter p).filterMap f := by
  rw [List.filterMap_filter]
  refine List.filterMap_congr fun a _ => ?_
  cases hp : p a with
  | false => exact h a hp
  | true => rfl

/-- Each part of a solution comes from the entries of one kind. -/
theorem Solution.ofEntries_congr {path : String} {entries entries' : List SolutionEntry}
    (h : ∀ kind, kind ≠ .other →
      entries.filter (·.kind = kind) = entries'.filter (·.kind = kind)) :
    ofEntries path entries = ofEntries path entries' := by
  have hpart {β : Type} (f : SolutionEntry → Option β) (kind : BlockKind) (hkind : kind ≠ .other)
      (hf : ∀ entry, entry.kind ≠ kind → f entry = none) :
      entries.filterMap f = entries'.filterMap f := by
    rw [filterMap_eq_filterMap_filter (p := (·.kind = kind)) (by simpa using hf) entries,
      filterMap_eq_filterMap_filter (p := (·.kind = kind)) (by simpa using hf) entries',
      h kind hkind]
  have hprojects : entries.filterMap (project? (Path.directory path)) =
      entries'.filterMap (project? (Path.directory path)) := by
    refine hpart _ .project BlockKind.noConfusion fun entry hentry => ?_
    cases entry with
    | project => exact absurd rfl hentry
    | _ => rfl
  have hconfigurations : entries.filterMap configuration? = entries'.filterMap configuration? := by
    refine hpart _ .solutionConfigurations BlockKind.noConfusion fun entry hentry => ?_
    cases entry with
    | configuration => exact absurd rfl hentry
    | _ => rfl
  have hactive : entries.filterMap active? = entries'.filterMap active? := by
    refine hpart _ .projectConfigurations BlockKind.noConfusion fun entry hentry => ?_
    cases entry with
    | active => exact absurd rfl hentry
    | _ => rfl
  have hany (es : List SolutionEntry) :
      es.any isUtility = (es.filter (·.kind = .project)).any isUtility := by
    rw [List.any_filter]
    refine congrArg es.any (funext fun entry => ?_)
    cases entry with
    | _ => rfl
  have hgenerated : entries.any isUtility = entries'.any isUtility := by
    rw [hany entries, hany entries', h .project BlockKind.noConfusion]
  rw [ofEntries, ofEntries, hprojects, hconfigurations, hactive, hgenerated]

theorem filter_flatMap_entries {kind : BlockKind} (hkind : kind ≠ .other) (blocks : List Block) :
    (blocks.flatMap (·.entries)).filter (·.kind = kind) =
      (blocks.filter (·.kind = kind)).flatMap fun block =>
        block.entries.filter (·.kind = kind) := by
  induction blocks with
  | nil => rfl
  | cons block rest ih =>
      rw [List.flatMap_cons, List.filter_append, ih]
      by_cases hblock : block.kind = kind
      · rw [List.filter_cons_of_pos (by simpa using hblock), List.flatMap_cons]
      · have hnone : block.entries.filter (·.kind = kind) = [] := by
          rw [List.filter_eq_nil_iff]
          intro entry hentry
          rcases Block.kind_of_mem_entries hentry with h | h
          · simpa [h] using hblock
          · simpa [h] using hkind.symm
        rw [List.filter_cons_of_neg (by simpa using hblock), hnone, List.nil_append]

theorem Solution.ofLines_eq_of_blocks (path : String) {blocks blocks' : List Block}
    (h : ∀ kind, kind ≠ .other → blocks.filter (·.kind = kind) = blocks'.filter (·.kind = kind)) :
    ofLines path ((blocks.flatMap (·.lines)).map Text.trim) =
      ofLines path ((blocks'.flatMap (·.lines)).map Text.trim) := by
  rw [ofLines, ofLines, ofLines_blocks, ofLines_blocks]
  refine ofEntries_congr fun kind hkind => ?_
  rw [filter_flatMap_entries hkind, filter_flatMap_entries hkind, h kind hkind]

/-! ### Layout -/

/-- A line of a text is this line with blanks around it, such as an indent in front or a carriage
return behind. -/
def Surrounds (raw : List Char) (line : String) : Prop :=
  ∃ front back, raw = front ++ line.toList ++ back ∧
    (∀ c ∈ front, Text.isBlank c = true) ∧ ∀ c ∈ back, Text.isBlank c = true

/-- A text has these lines: they are parted by line feeds, each may have blanks around it, and any
number of byte order marks stands in front of them all. The first line does not itself begin with
such a mark. -/
def Writes (text : String) (lines : List String) : Prop :=
  ∃ (marks : Nat) (raw : List (List Char)),
    text = .ofList (List.replicate marks '\uFEFF' ++ ['\n'].intercalate raw) ∧
      List.Forall₂ Surrounds raw lines ∧ (∀ line ∈ raw, '\n' ∉ line) ∧
      (['\n'].intercalate raw).head? ≠ some '\uFEFF'

theorem surrounds_self (line : String) : Surrounds line.toList line :=
  ⟨[], [], by simp, by simp, by simp⟩

theorem trim_of_surrounds {raw : List Char} {line : String} (h : Surrounds raw line) :
    Text.trim (.ofList raw) = Text.trim line := by
  obtain ⟨front, back, rfl, hfront, hback⟩ := h
  rw [Text.trim, Text.trim, Text.trimMatches, Text.trimMatches, String.toList_ofList,
    Text.trimWhere_append hfront hback]

theorem map_trim_of_surrounds {raw : List (List Char)} {lines : List String}
    (h : List.Forall₂ Surrounds raw lines) :
    (raw.map String.ofList).map Text.trim = lines.map Text.trim := by
  induction h with
  | nil => rfl
  | cons hline _ ih => rw [List.map_cons, List.map_cons, List.map_cons, trim_of_surrounds hline, ih]

/-- A text has its own lines. -/
theorem writes_lines (text : String) :
    Writes text (Text.splitOn '\n' (Text.withoutMarks text)) := by
  obtain ⟨marks, htext, hhead⟩ := Text.exists_marks text
  refine ⟨marks, (Text.withoutMarks text).toList.splitOn '\n', ?_, ?_, ?_, ?_⟩
  · rw [List.intercalate_splitOn]
    exact htext
  · rw [Text.splitOn, List.forall₂_map_right_iff, List.forall₂_same]
    intro raw _
    simpa using surrounds_self (.ofList raw)
  · exact fun line hline => Text.not_mem_of_mem_splitOn hline
  · rw [List.intercalate_splitOn]
    exact hhead

/-- Every text that leaves no section open is written from blocks. -/
theorem exists_blocks_of_text {text : String}
    (h : ∀ place, ¬ OpenAfter place (linesOf text)) :
    ∃ blocks : List Block, Writes text (blocks.flatMap (·.lines)) := by
  obtain ⟨blocks, hblocks⟩ := exists_blocks (SolutionEntry.after_eq_outside_iff.2 h)
  exact ⟨blocks, hblocks ▸ writes_lines text⟩

/-- The layout of a text does not count. -/
theorem ofLines_linesOf {text : String} {lines : List String} (h : Writes text lines) :
    SolutionEntry.ofLines .outside (linesOf text) =
      SolutionEntry.ofLines .outside (lines.map Text.trim) := by
  obtain ⟨marks, raw, rfl, hraw, hfeed, hhead⟩ := h
  rw [linesOf, Text.withoutMarks_ofList hhead]
  cases lines with
  | nil =>
      -- a text without lines is read as one empty line
      cases hraw with
      | nil => decide
  | cons line lines =>
      have hne : raw ≠ [] := by
        rintro rfl
        exact nomatch hraw
      rw [Text.splitOn_ofList hfeed hne, map_trim_of_surrounds hraw]

/-- Texts with the same projects, in order, and the same sections of each kind, in order, describe
the same solution: the same projects and configurations, the same active configuration of every
project in every configuration, and the same answer whether CMake has generated it. Blocks of unlike
kinds may stand in any order, other lines may stand between them, and the layout does not count. -/
theorem parse_eq_of_blocks (path : String) {text text' : String} {blocks blocks' : List Block}
    (hblocks : ∀ kind, kind ≠ .other →
      blocks.filter (·.kind = kind) = blocks'.filter (·.kind = kind))
    (htext : Writes text (blocks.flatMap (·.lines)))
    (htext' : Writes text' (blocks'.flatMap (·.lines))) :
    Solution.parse path text = Solution.parse path text' := by
  have hlines := Solution.ofLines_eq_of_blocks path hblocks
  rw [Solution.ofLines, Solution.ofLines, ← ofLines_linesOf htext,
    ← ofLines_linesOf htext'] at hlines
  exact hlines

/-- A project and a section; and the other way round behind a mark, laid out differently and with a
line between them. -/
theorem parse_eq_of_blocks_rearranged :
    Solution.parse "a.sln"
        ("Project() = app, app.vcxproj, A\n" ++
          "GlobalSection(SolutionConfigurationPlatforms)\nD\nEndGlobalSection") =
      Solution.parse "a.sln"
        ("\uFEFFGlobalSection(SolutionConfigurationPlatforms)\r\n\tD\r\nEndGlobalSection\r\n" ++
          "Global\r\n Project() = app, app.vcxproj, A") := by
  have hproject : Forms .project ["Project() = app, app.vcxproj, A"] := .project (by decide)
  have hsection : Forms .solutionConfigurations
      ("GlobalSection(SolutionConfigurationPlatforms)" :: ["D"] ++ ["EndGlobalSection"]) :=
    .terminated (.solutionConfigurations (by decide)) (by decide) (by decide)
  have hother : Forms .other ["Global"] :=
    .other (by decide) (by rintro _ (h | h) <;> exact absurd h (by decide))
  have hblank {c : Char} (hc : c ∈ [' ', '\t', '\r']) : ∀ d ∈ [c], Text.isBlank d = true := by
    have hall : [' ', '\t', '\r'].all Text.isBlank = true := by decide
    simpa using List.all_eq_true.1 hall c hc
  have hreturn (line : String) : Surrounds (line.toList ++ ['\r']) line :=
    ⟨[], ['\r'], rfl, by simp, hblank (by simp)⟩
  refine @parse_eq_of_blocks "a.sln" _ _ [⟨_, _, hproject⟩, ⟨_, _, hsection⟩]
    [⟨_, _, hsection⟩, ⟨_, _, hother⟩, ⟨_, _, hproject⟩] ?_ ?_ ?_
  · intro kind hkind
    cases kind with
    | other => exact absurd rfl hkind
    | _ => rfl
  · refine ⟨0, _, ?_, .cons (surrounds_self _) (.cons (surrounds_self _) (.cons (surrounds_self _)
      (.cons (surrounds_self _) .nil))), ?_, ?_⟩
    · decide +kernel
    · decide +kernel
    · decide +kernel
  · have hindented : Surrounds ('\t' :: "D".toList ++ ['\r']) "D" :=
      ⟨['\t'], ['\r'], rfl, hblank (by simp), hblank (by simp)⟩
    have hmoved (line : String) : Surrounds (' ' :: line.toList) line :=
      ⟨[' '], [], by simp, hblank (by simp), by simp⟩
    refine ⟨1, _, ?_, .cons (hreturn _) (.cons hindented (.cons (hreturn _) (.cons (hreturn _)
      (.cons (hmoved _) .nil)))), ?_, ?_⟩
    · decide +kernel
    · decide +kernel
    · decide +kernel

/-- With the same lines in another order, a mark that stood in front of a line comes to stand in
front of the text, and there it does not count: the line lists a project. -/
theorem projects_ne_of_moved_mark : ∃ blocks blocks' : List Block, blocks.Perm blocks' ∧
    (∀ block ∈ blocks, block.kind = .other) ∧
    Solution.parse "a.sln" ("\n".intercalate (blocks.flatMap (·.lines))) ≠
      Solution.parse "a.sln" ("\n".intercalate (blocks'.flatMap (·.lines))) := by
  have hplain : Forms .other ["Global"] :=
    .other (by decide) (by rintro _ (h | h) <;> exact absurd h (by decide))
  have hmarked : Forms .other ["\uFEFFProject() = app, app.vcxproj, A"] :=
    .other (by decide) (by rintro _ (h | h) <;> exact absurd h (by decide))
  have hprojects : (Solution.parse "a.sln" ("\n".intercalate
      ["Global", "\uFEFFProject() = app, app.vcxproj, A"])).projects.length ≠
        (Solution.parse "a.sln" ("\n".intercalate
          ["\uFEFFProject() = app, app.vcxproj, A", "Global"])).projects.length := by
    decide +kernel
  refine ⟨[⟨_, _, hplain⟩, ⟨_, _, hmarked⟩], [⟨_, _, hmarked⟩, ⟨_, _, hplain⟩],
    .swap _ _ _, by simp, fun h => hprojects ?_⟩
  simp only [List.flatMap_cons, List.flatMap_nil, List.cons_append, List.nil_append] at h
  rw [h]

end BuildAtlas.VisualStudio
