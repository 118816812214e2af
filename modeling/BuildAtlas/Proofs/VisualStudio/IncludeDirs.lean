import BuildAtlas.Proofs.Path.Exit
import BuildAtlas.Proofs.VisualStudio.DocumentOrder
import BuildAtlas.Proofs.VisualStudio.Macros

/-!
# BuildAtlas.Proofs.VisualStudio.IncludeDirs

What becomes of an include directory that begins with a reference to an unknown macro.

Such a directory is not resolved against the directory of the document, and no macro is expanded in
the reference (`expand_reference_append`). The directory is brought to its one spelling in the end,
though, where the reference is a name like others. It stays in front when what follows does not lead
out of the directory that it stands for, and else it is taken back like a name
(`reference_stays_or_taken_back`): `$(X)/../y` becomes `y`.
-/

namespace BuildAtlas.VisualStudio.ProjectDocument

open Xml (Element)

/-! ### Directories as they are listed -/

/-- The include directories as the document lists them, with slashes. -/
def ListField.listedDirs : ListField :=
  ⟨"AdditionalIncludeDirectories", fun dirs => listEntries (Path.withSlashes dirs)⟩

theorem ListField.contribution_includeDirs (directory : String) (element : Element) :
    (includeDirs directory).contribution element =
      (listedDirs.contribution element).map (resolveInclude directory) := by
  rw [contribution, contribution, includeDirs, listedDirs]
  cases element.childText? "AdditionalIncludeDirectories" with
  | none => rfl
  | some text => rw [Option.map_some, Option.map_some, Option.getD_some, Option.getD_some]

/-- Each directory that counts in a configuration comes from one that is listed, in their order. -/
theorem includeDirs_eq_map (project : SolutionProject) (solutionDir : String) (root : Element)
    (configuration : String) : (ofRoot project solutionDir root).includeDirs configuration =
      ((compileElementsIn root configuration).flatMap ListField.listedDirs.contribution).map
        fun entry => Path.normalize
          (((MacroTable.ofProject solutionDir project.name project.path).within
            configuration).expand (resolveInclude (Path.directory project.path) entry)) := by
  rw [includeDirs_ofRoot, funext (ListField.contribution_includeDirs _), ← List.map_flatMap,
    List.map_map]
  rfl

/-! ### References in front -/

section Reference

variable {name : String}

theorem resolveInclude_reference (directory name rest : String) :
    resolveInclude directory (macroReference name ++ rest) = macroReference name ++ rest := by
  have hstart : macroReference name ++ rest = "$(" ++ (name ++ ")" ++ rest) := by
    rw [macroReference, String.append_assoc, String.append_assoc, String.append_assoc]
  rw [resolveInclude, hstart, Text.dropStart?_append]
  rfl

theorem slash_not_mem_macroReference (h : '/' ∉ name.toList) :
    '/' ∉ (macroReference name).toList := by
  rw [toList_macroReference]
  simpa using h

/-- A piece that a reference begins is a name, and no drive. -/
theorem isName_reference_append (h : '/' ∉ name.toList) {stem : String}
    (hstem : '/' ∉ stem.toList) : Path.IsName (macroReference name ++ stem) ∧
      Path.isDrive (macroReference name ++ stem) = false := by
  have htext : (macroReference name ++ stem).toList =
      '$' :: '(' :: (name.toList ++ ')' :: stem.toList) := by
    rw [String.toList_append, toList_macroReference]
    simp
  have hne (other : String) (hother : other.toList.head? ≠ some '$') :
      macroReference name ++ stem ≠ other := by
    rintro rfl
    exact hother (by rw [htext]; rfl)
  refine ⟨⟨?_, hne ".." (by decide), ?_⟩, ?_⟩
  · exact Path.isIdle_eq_false_iff.2 ⟨hne "" (by decide), hne "." (by decide)⟩
  · rw [String.toList_append, List.mem_append, not_or]
    exact ⟨slash_not_mem_macroReference h, hstem⟩
  · rw [Path.isDrive, htext]
    cases hrest : name.toList ++ ')' :: stem.toList with
    | nil => simp at hrest
    | cons c rest => rfl

/-- The path behind a reference decides whether the reference stays in front. -/
theorem normalize_reference_append (h : '/' ∉ name.toList) (rest : String) :
    (¬ Path.LeadsOut (Path.pieces rest).tail →
      ∃ back, Path.normalize (macroReference name ++ rest) = macroReference name ++ back) ∧
    ∀ front back, (Path.pieces rest).tail = front ++ ".." :: back → Path.ComesBack front →
      Path.normalize (macroReference name ++ rest) =
        Path.normalize (Path.ofPieces ("." :: back)) := by
  obtain ⟨stem, more, hrest⟩ := List.exists_cons_of_ne_nil (Path.pieces_ne_nil rest)
  have hpieces := Path.pieces_append_of_not_mem (slash_not_mem_macroReference h) hrest
  obtain ⟨hname, hdrive⟩ := isName_reference_append h
    (Path.slash_not_mem_of_mem_pieces (hrest ▸ List.mem_cons_self))
  rw [hrest, List.tail_cons]
  constructor
  · intro hinside
    obtain ⟨back, hback⟩ := Path.exists_normalize_eq_append hpieces hname hinside
    exact ⟨stem ++ back, by rw [hback, String.append_assoc]⟩
  · rintro front back rfl hfront
    exact Path.normalize_of_comesBack hpieces hname hdrive hfront

end Reference

/-- An entry begins with a reference to a macro that is not in the table, and goes on by `rest`. -/
structure BeginsUnknown (table : MacroTable) (entry name rest : String) : Prop where
  eq : entry = macroReference name ++ rest
  isMacroName : IsMacroName name
  slash_not_mem : '/' ∉ name.toList
  unknown : table.text? name = none

/-- The pieces behind the one in which a reference stands. -/
def piecesBehind (table : MacroTable) (rest : String) : List String :=
  (Path.pieces (table.expand rest)).tail

/-- What becomes of an entry that begins with a reference to an unknown macro. -/
structure ReferenceOutcome (table : MacroTable) (entry dir : String) : Prop where
  /-- If the pieces behind it do not lead out, the reference stays in front. -/
  stays : ∀ name rest, BeginsUnknown table entry name rest →
    ¬ Path.LeadsOut (piecesBehind table rest) → ∃ back, dir = macroReference name ++ back
  /-- If a `..` leads out, what stands behind it is left, as seen from nowhere. -/
  taken_back : ∀ name rest, BeginsUnknown table entry name rest →
    ∀ front back, piecesBehind table rest = front ++ ".." :: back → Path.ComesBack front →
      dir = Path.normalize (Path.ofPieces ("." :: back))

/-- Each directory that is listed for a configuration becomes one, in their order. An unknown
reference with which it begins stays in front, unless the pieces behind it lead out of what it
stands for. -/
theorem reference_stays_or_taken_back {project : SolutionProject} {solutionDir text : String}
    {document : ProjectDocument} (h : parse project solutionDir text = .ok document)
    (configuration : String) :
    ∃ root listed, Describes text root ∧
      ListField.listedDirs.Lists root configuration listed ∧
      List.Forall₂ (ReferenceOutcome (document.macros.within configuration)) listed
        (document.includeDirs configuration) := by
  obtain ⟨root, hroot, rfl⟩ := parse_eq_ok_iff.1 h
  refine ⟨root, _, hroot, ListField.listedDirs.lists_flatMap root configuration, ?_⟩
  rw [includeDirs_eq_map, List.forall₂_map_right_iff, List.forall₂_same]
  rintro entry -
  have hdir {name rest : String} (hentry : BeginsUnknown
      ((ofRoot project solutionDir root).macros.within configuration) entry name rest) :
      ((MacroTable.ofProject solutionDir project.name project.path).within configuration).expand
        (resolveInclude (Path.directory project.path) entry) = macroReference name ++
          ((ofRoot project solutionDir root).macros.within configuration).expand rest := by
    rw [hentry.eq, resolveInclude_reference, MacroTable.expand_reference_append
      MacroTable.isMacroName_of_mem_within hentry.isMacroName hentry.unknown]
    rfl
  constructor
  · intro name rest hentry hinside
    rw [hdir hentry]
    exact (normalize_reference_append hentry.slash_not_mem _).1 hinside
  · intro name rest hentry front back hrest hfront
    rw [hdir hentry]
    exact (normalize_reference_append hentry.slash_not_mem _).2 front back hrest hfront

/-- A document with two directories behind a reference, of which the second one leads out. -/
def referenceText : String :=
  "<Project><ItemDefinitionGroup><ClCompile><AdditionalIncludeDirectories>$(X)/a/../y;$(X)/../y" ++
    "</AdditionalIncludeDirectories></ClCompile></ItemDefinitionGroup></Project>"

/-- The element at the top of this document. -/
def referenceRoot : Element :=
  ⟨"Project", [], [.element "ItemDefinitionGroup" [] [.element "ClCompile" []
    [.element "AdditionalIncludeDirectories" [] [.text "$(X)/a/../y;$(X)/../y"]]]]⟩

theorem describes_referenceText : Describes referenceText referenceRoot :=
  describes_of_read String.ofList_append.symm (by decide) (by decide +kernel) rfl

theorem listed_referenceRoot :
    (compileElementsIn referenceRoot "").flatMap ListField.listedDirs.contribution =
      ["$(X)/a/../y", "$(X)/../y"] := by
  decide +kernel

theorem reference_stays_or_taken_back_referenceText :
    ∃ document, parse sampleProject "/s" referenceText = .ok document ∧
      ∃ stays left, document.includeDirs "" = [stays, left] ∧
        (∃ back, stays = macroReference "X" ++ back) ∧ left = "y" := by
  have hdocument : parse sampleProject "/s" referenceText =
      .ok (ofRoot sampleProject "/s" referenceRoot) :=
    parse_eq_ok_iff.2 ⟨referenceRoot, describes_referenceText, rfl⟩
  obtain ⟨root, listed, hroot, hlisted, hdirs⟩ := reference_stays_or_taken_back hdocument ""
  obtain rfl : referenceRoot = root :=
    Except.ok.inj (describes_referenceText.parse_eq.symm.trans hroot.parse_eq)
  obtain rfl := hlisted.eq.trans listed_referenceRoot
  refine ⟨_, hdocument, ?_⟩
  have hunknown (rest : String) : BeginsUnknown
      ((ofRoot sampleProject "/s" referenceRoot).macros.within "") ("$(X)" ++ rest) "X" rest :=
    ⟨rfl, by decide, by decide, by decide +kernel⟩
  generalize (ofRoot sampleProject "/s" referenceRoot).includeDirs "" = dirs at hdirs ⊢
  cases hdirs with
  | cons hstays hdirs =>
      cases hdirs with
      | cons hleft hdirs =>
          cases hdirs
          refine ⟨_, _, rfl, hstays.stays "X" "/a/../y" (hunknown "/a/../y") ?_, ?_⟩
          · rw [Path.leadsOut_iff (by decide +kernel)]
            decide +kernel
          · rw [hleft.taken_back "X" "/../y" (hunknown "/../y") [] ["y"] (by decide +kernel)
              (Path.comesBack_of_foldl_walk (by decide) rfl)]
            decide +kernel

/-- The second directory begins with a reference to an unknown macro, and what becomes of it does
not. -/
theorem not_reference_prefix_of_leadsOut :
    ∃ document, parse sampleProject "/s" referenceText = .ok document ∧
      ListField.listedDirs.Lists referenceRoot "Debug|x64" ["$(X)/a/../y", "$(X)/../y"] ∧
      (document.macros.within "Debug|x64").text? "X" = none ∧
      document.includeDirs "Debug|x64" = ["$(X)/y", "y"] ∧
      ¬ (macroReference "X").toList <+: "y".toList := by
  refine ⟨_, parse_eq_ok_iff.2 ⟨referenceRoot, describes_referenceText, rfl⟩, ?_,
    by decide +kernel, by decide +kernel, by decide +kernel⟩
  have hlisted : (compileElementsIn referenceRoot "Debug|x64").flatMap
      ListField.listedDirs.contribution = ["$(X)/a/../y", "$(X)/../y"] := by
    decide +kernel
  exact hlisted ▸ ListField.listedDirs.lists_flatMap referenceRoot "Debug|x64"

end BuildAtlas.VisualStudio.ProjectDocument
