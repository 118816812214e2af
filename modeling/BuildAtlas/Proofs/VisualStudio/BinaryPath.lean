import BuildAtlas.Proofs.Path
import BuildAtlas.Proofs.VisualStudio.DocumentOrder
import BuildAtlas.Proofs.VisualStudio.References
import BuildAtlas.Proofs.Workspace.Documents

/-!
# BuildAtlas.Proofs.VisualStudio.BinaryPath

References in the path of what a project makes.

The path is put together from the output directory, in which macros are expanded, and from the name
of the target, in which they are not. So a reference in the name is also one in the path, and when
the directory refers to known macros, each once, there are no others
(`holdsReference_binaryPath_iff`). The program that the editor starts holds the references of the
path.
-/

namespace BuildAtlas.VisualStudio

/-! ### Texts put together -/

theorem holdsReference_append_iff {front back : String}
    (h : front.toList.getLast? ≠ some '$' ∨ back.toList.head? ≠ some '(') :
    HoldsReference (front ++ back) ↔ HoldsReference front ∨ HoldsReference back := by
  rw [HoldsReference, String.toList_append, pair_infix_append_iff]
  rw [HoldsReference, HoldsReference]
  tauto

theorem not_holdsReference {text : String} (h : '$' ∉ text.toList) : ¬ HoldsReference text :=
  not_pair_infix_of_not_mem h

/-- A part without a dollar sign brings no reference. -/
theorem holdsReference_append_of_not_mem {front back : String} (h : '$' ∉ front.toList) :
    HoldsReference (front ++ back) ↔ HoldsReference back := by
  rw [holdsReference_append_iff (.inl fun hlast => h (List.mem_of_getLast? hlast))]
  exact or_iff_right (not_holdsReference h)

theorem holdsReference_append_slash (front : String) :
    HoldsReference (front ++ "/") ↔ HoldsReference front := by
  rw [holdsReference_append_iff (.inr (by decide))]
  exact or_iff_left (not_holdsReference (by decide))

/-- Where the program is seen from brings no reference. -/
theorem holdsReference_program_iff {cwd : String} (hcwd : '$' ∉ cwd.toList) (binary : String) :
    HoldsReference (Project.program cwd binary) ↔ HoldsReference binary := by
  have hslash : '$' ∉ (cwd ++ "/").toList := by
    rw [String.toList_append, List.mem_append, not_or]
    exact ⟨hcwd, by decide⟩
  rw [Project.program]
  split
  · rfl
  · rw [Path.join]
    split
    · rfl
    · split
      · exact holdsReference_append_of_not_mem hcwd
      · exact holdsReference_append_of_not_mem hslash

/-! ### The table of a configuration -/

/-- The two halves of a name that a bar parts hold no more than the name. -/
theorem not_mem_splitConfiguration {c : Char} {configuration : String}
    (h : c ∉ configuration.toList) : c ∉ (splitConfiguration configuration).1.toList ∧
      c ∉ (splitConfiguration configuration).2.toList := by
  rw [splitConfiguration]
  cases hcut : Text.splitOnce? "|" configuration with
  | none => exact ⟨h, List.not_mem_nil⟩
  | some halves =>
      obtain ⟨name, platform⟩ := halves
      obtain ⟨hwhole, -⟩ := (Text.splitOnce?_eq_some_iff rfl).1 hcut
      rw [hwhole, String.toList_append, String.toList_append] at h
      simp only [List.mem_append, not_or] at h
      exact ⟨h.1.1, h.2⟩

/-- What the texts of a table are made of. -/
def sources (project : SolutionProject) (solutionDir configuration : String) : List String :=
  [solutionDir, project.name, project.path, configuration]

theorem isPlain_of_sources {project : SolutionProject} {solutionDir configuration : String}
    (h : ∀ source ∈ sources project solutionDir configuration, '$' ∉ source.toList) :
    ((MacroTable.ofProject solutionDir project.name project.path).within
      configuration).IsPlain := by
  simp only [sources, List.forall_mem_cons] at h
  obtain ⟨hdir, hname, hpath, hconfiguration, -⟩ := h
  obtain ⟨hfirst, hsecond⟩ := not_mem_splitConfiguration hconfiguration
  have hclosed : '$' ∉ (if solutionDir.toList.getLast? == some '/' then solutionDir
      else solutionDir ++ "/").toList := by
    split
    · exact hdir
    · rw [String.toList_append, List.mem_append, not_or]
      exact ⟨hdir, by decide⟩
  have hshort : '$' ∉ (shortPlatform (splitConfiguration configuration).2).toList := by
    rw [shortPlatform]
    split
    · decide
    · exact hsecond
  refine MacroTable.isPlain_within fun entry hentry => ?_
  rw [MacroTable.within] at hentry
  split at hentry
  · simp only [MacroTable.ofProject, List.mem_cons, List.not_mem_nil, or_false] at hentry
    rcases hentry with rfl | rfl | rfl
    · exact hclosed
    · exact hname
    · exact hpath
  · simp only [MacroTable.ofProject, MacroTable.configurationEntries, List.mem_append,
      List.mem_cons, List.not_mem_nil, or_false] at hentry
    rcases hentry with (rfl | rfl | rfl) | rfl | rfl | rfl | rfl
    · exact hclosed
    · exact hname
    · exact hpath
    · exact hshort
    · exact hsecond
    · exact hfirst
    · exact hfirst

/-- A dollar sign in front of a reference stands in front of another one. -/
theorem not_joinsDollar {table : MacroTable} {value : String}
    (h : ¬ ['$', '$'] <:+: value.toList) : ¬ JoinsDollar table value := by
  rintro ⟨front, name, back, text, hplace, -⟩
  refine h ⟨front, '(' :: (name.toList ++ [')'] ++ back), ?_⟩
  rw [hplace, toList_macroReference]
  simp

namespace ProjectDocument

open Xml (Element)

/-- The output directory of a project that gives none refers to known macros only. -/
theorem refersOnce_standardOutput (project : SolutionProject) (solutionDir : String)
    {configuration : String} (h : configuration ≠ "") :
    let table := (MacroTable.ofProject solutionDir project.name project.path).within configuration
    RefersOnce table (standardOutput configuration) ∧
      ¬ JoinsDollar table (standardOutput configuration) := by
  intro table
  have hnames : table.entries.map Prod.fst = ["SolutionDir", "ProjectName", "ProjectPath",
      "PlatformShortName", "Platform", "Configuration", "ConfigurationName"] := by
    rw [MacroTable.names_within, if_neg h]
    rfl
  have hcases : standardOutput configuration = "$(SolutionDir)$(Configuration)/" ∨
      standardOutput configuration = "$(SolutionDir)$(Platform)/$(Configuration)/" := by
    rw [standardOutput]
    exact ite_eq_or_eq ..
  rcases hcases with hstandard | hstandard
  · rw [hstandard]
    refine ⟨⟨?_, by decide +kernel⟩, not_joinsDollar (by decide +kernel)⟩
    rw [hnames]
    decide +kernel
  · rw [hstandard]
    refine ⟨⟨?_, by decide +kernel⟩, not_joinsDollar (by decide +kernel)⟩
    rw [hnames]
    decide +kernel

/-- The extension and the slash behind the directory bring no reference. -/
theorem holdsReference_binaryPath (document : ProjectDocument) {configuration : String}
    (h : configuration ≠ "") : HoldsReference (document.binaryPath configuration) ↔
      HoldsReference (document.outputDir configuration) ∨
        HoldsReference (document.targetName configuration) := by
  have hextension : (binaryExtension (document.kind configuration)).toList.head? ≠ some '(' ∧
      ¬ HoldsReference (binaryExtension (document.kind configuration)) := by
    cases document.kind configuration with
    | executable => decide +kernel
    | sharedLibrary => decide +kernel
    | staticLibrary => decide +kernel
    | sourceSet => decide +kernel
  rw [binaryPath, if_neg h]
  dsimp only
  rw [holdsReference_append_iff (.inr hextension.1), or_iff_left hextension.2]
  generalize document.outputDir configuration = directory
  split
  · rename_i hclosed
    rw [holdsReference_append_iff]
    -- nothing, or a slash, stands at the end of the directory
    refine .inl fun hlast => ?_
    rcases hclosed with rfl | hslash
    · exact absurd hlast (by decide)
    · exact absurd (Option.some.inj (hslash.symm.trans hlast)) (by decide)
  · have hlast : (directory ++ "/").toList.getLast? = some '/' :=
      Path.getLast?_append_of_getLast? rfl
    rw [holdsReference_append_iff (.inl (by rw [hlast]; decide)), holdsReference_append_slash]

/-- The entry that starts a solution's project starts the binary of the active configuration. -/
theorem program_of_launch? {settings : ImportSettings} {solution : Solution}
    {document : ProjectDocument} {chosen : String} {entry : LaunchEntry}
    (h : (toProject settings solution document).launch? chosen = some entry) :
    entry.program = Project.program solution.directory
      (document.binaryPath (solution.projectConfiguration document.project.guid chosen)) := by
  obtain ⟨hkind, rfl⟩ := Workspace.launch?_eq_some_iff.1 h
  rw [toProject] at hkind ⊢
  obtain ⟨groups, hproject⟩ := Project.ofTarget_eq document.project.name
    (Imported.container solution.path ++ ":" ++ document.project.path)
    (document.files.filter (Imported.hasListedExtension shownExtensions))
    (.ofList (solution.configurations.map fun configuration =>
      (configuration, targetSettings settings solution document configuration)))
    !(document.hasExtensionTargets && settings.hasToolchain)
  rw [hproject] at hkind ⊢
  simp only [Project.ofSettings, SortedMap.find?_mapValues, SortedMap.find?_ofList_names]
    at hkind ⊢
  by_cases hchosen : chosen ∈ solution.configurations
  · simp only [if_pos hchosen]
    rfl
  · rw [if_neg hchosen] at hkind
    exact absurd hkind.symm (Option.some_ne_none _)

/-- Let the texts of the macros hold no dollar sign, and let the output directory that is in force
for a configuration, if one is given, refer to known macros only, to each at most once, and to none
directly behind a dollar sign which the text of the macro joins. Then the path of the binary holds a
reference just when a name is given for the target and this name holds one. The program that the
editor starts holds a reference just when that path does. -/
theorem holdsReference_binaryPath_iff {project : SolutionProject}
    {solutionDir text configuration : String} {root : Element} {document : ProjectDocument}
    (hroot : Describes text root) (hdocument : parse project solutionDir text = .ok document)
    (hconfiguration : configuration ≠ "")
    (hplain : ∀ source ∈ sources project solutionDir configuration, '$' ∉ source.toList)
    (hdirectory : ∀ directory, PropertyField.directory.last? root configuration = some directory →
      RefersOnce (document.macros.within configuration) directory ∧
        ¬ JoinsDollar (document.macros.within configuration) directory) :
    (HoldsReference (document.binaryPath configuration) ↔ ∃ name,
      PropertyField.targetName.last? root configuration = some name ∧ HoldsReference name) ∧
    ∀ settings solution chosen entry, solution.directory = solutionDir →
      solution.projectConfiguration project.guid chosen = configuration →
      (toProject settings solution document).launch? chosen = some entry →
        (HoldsReference entry.program ↔ HoldsReference (document.binaryPath configuration)) := by
  obtain ⟨found, hfound, rfl⟩ := parse_eq_ok_iff.1 hdocument
  obtain rfl : root = found := Except.ok.inj (hroot.parse_eq.symm.trans hfound.parse_eq)
  have htable := isPlain_of_sources hplain
  simp only [sources, List.forall_mem_cons] at hplain
  obtain ⟨hdir, hname, -⟩ := hplain
  constructor
  · have hexpanded :
        ¬ HoldsReference ((ofRoot project solutionDir root).outputDir configuration) := by
      rw [outputDir_ofRoot]
      cases hgiven : PropertyField.directory.last? root configuration with
      | none =>
          obtain ⟨hrefers, hjoins⟩ := refersOnce_standardOutput project solutionDir
            hconfiguration
          exact htable.not_holdsReference_expand hrefers hjoins
      | some directory =>
          obtain ⟨hrefers, hjoins⟩ := hdirectory directory hgiven
          exact htable.not_holdsReference_expand hrefers hjoins
    rw [holdsReference_binaryPath _ hconfiguration, or_iff_right hexpanded, targetName_ofRoot]
    cases PropertyField.targetName.last? root configuration with
    | none => simpa using not_holdsReference hname
    | some name => simp
  · rintro settings solution chosen entry rfl rfl hentry
    rw [program_of_launch? hentry]
    exact holdsReference_program_iff hdir _

/-- A document that gives the name of its target by a reference, for one configuration. -/
def referringText : String :=
  "<Project><PropertyGroup><OutDir>o$/$(Platform)</OutDir></PropertyGroup><PropertyGroup " ++
    "Condition=\"==D|x64\"><TargetName>$(ProjectName)</TargetName></PropertyGroup></Project>"

/-- The element at the top of this document. -/
def referringRoot : Element :=
  ⟨"Project", [], [.element "PropertyGroup" [] [.element "OutDir" [] [.text "o$/$(Platform)"]],
    .element "PropertyGroup" [("Condition", "==D|x64")]
      [.element "TargetName" [] [.text "$(ProjectName)"]]]⟩

theorem describes_referringText : Describes referringText referringRoot :=
  describes_of_read String.ofList_append.symm (by decide) (by decide +kernel) rfl

/-- Its directory and the name of its target refer to known macros, each once. -/
theorem refersOnce_referringRoot :
    PropertyField.directory.last? referringRoot "D|x64" = some "o$/$(Platform)" ∧
      PropertyField.targetName.last? referringRoot "D|x64" = some "$(ProjectName)" ∧
      PropertyField.directory.last? referringRoot "R|x64" = some "o$/$(Platform)" ∧
      PropertyField.targetName.last? referringRoot "R|x64" = none ∧
      ∀ configuration ∈ ["D|x64", "R|x64"], ∀ value ∈ ["o$/$(Platform)", "$(ProjectName)"],
        RefersOnce ((MacroTable.ofProject "/s" "app" "app.vcxproj").within configuration)
          value := by
  decide +kernel

theorem holdsReference_binaryPath_iff_referringText :
    ∃ document, parse sampleProject "/s" referringText = .ok document ∧
      HoldsReference (document.binaryPath "D|x64") ∧
      ¬ HoldsReference (document.binaryPath "R|x64") := by
  have hdocument : parse sampleProject "/s" referringText =
      .ok (ofRoot sampleProject "/s" referringRoot) :=
    parse_eq_ok_iff.2 ⟨referringRoot, describes_referringText, rfl⟩
  obtain ⟨hdirD, hnameD, hdirR, hnameR, hrefers⟩ := refersOnce_referringRoot
  have hjoins (table : MacroTable) : ¬ JoinsDollar table "o$/$(Platform)" :=
    not_joinsDollar (by decide)
  refine ⟨_, hdocument, ?_, ?_⟩
  · refine (holdsReference_binaryPath_iff describes_referringText hdocument (by decide)
      (by decide) fun directory hdirectory => ?_).1.2 ⟨_, hnameD, by decide⟩
    obtain rfl := Option.some.inj (hdirD.symm.trans hdirectory)
    exact ⟨hrefers _ (by decide) _ (by decide), hjoins _⟩
  · intro hholds
    obtain ⟨name, hname, -⟩ := (holdsReference_binaryPath_iff describes_referringText hdocument
      (by decide) (by decide) fun directory hdirectory => by
        obtain rfl := Option.some.inj (hdirR.symm.trans hdirectory)
        exact ⟨hrefers _ (by decide) _ (by decide), hjoins _⟩).1.1 hholds
    exact nomatch hnameR.symm.trans hname

/-- All texts are free of dollar signs and all references are to known macros, each used once, and
yet the path holds a reference: that of the target's name. -/
theorem unexpanded_binaryPath_referringText :
    ∃ document, parse sampleProject "/s" referringText = .ok document ∧
      (∀ source ∈ sources sampleProject "/s" "D|x64", '$' ∉ source.toList) ∧
      PropertyField.directory.last? referringRoot "D|x64" = some "o$/$(Platform)" ∧
      PropertyField.targetName.last? referringRoot "D|x64" = some "$(ProjectName)" ∧
      RefersOnce (document.macros.within "D|x64") "o$/$(Platform)" ∧
      RefersOnce (document.macros.within "D|x64") "$(ProjectName)" ∧
      document.outputDir "D|x64" = "o$/x64" ∧
      document.binaryPath "D|x64" = "o$/x64/$(ProjectName).lib" ∧
      HoldsReference (document.binaryPath "D|x64") := by
  refine ⟨_, parse_eq_ok_iff.2 ⟨referringRoot, describes_referringText, rfl⟩, ?_⟩
  decide +kernel

end ProjectDocument

end BuildAtlas.VisualStudio
