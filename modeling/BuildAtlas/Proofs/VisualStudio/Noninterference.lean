import BuildAtlas.Proofs.Project.Configurations
import BuildAtlas.Proofs.VisualStudio.Conditions
import BuildAtlas.VisualStudio.Import

/-!
# BuildAtlas.Proofs.VisualStudio.Noninterference

Settings for one configuration do not reach another.

Two documents are compared that differ only in groups of settings for hidden configurations.
`AgreeFor` says that documents give the same under one condition; it holds under every condition
that is not hidden (`agreeFor_ofRoot`). A resolved setting reads the groups without a condition and
those for one configuration, so documents that agree under both resolve it alike, and so do the
projects that a solution makes of them (`agreeAt_toProject`).
-/

namespace BuildAtlas.VisualStudio

namespace ProjectDocument

open Xml (Element)

/-! ### Documents that differ in hidden groups only -/

/-- Is this one of the groups in which a document gives settings? -/
def givesSettings (group : Element) : Bool :=
  group.name == "ItemDefinitionGroup" ||
    group.name == "PropertyGroup" &&
      (label? group == none || label? group == some "Configuration")

/-- The parts of a document without the groups of settings for hidden configurations. -/
def shownParts (hidden : String → Bool) (root : Element) : List Element :=
  root.elements.filter fun group => !(givesSettings group && hidden (conditionOf group))

/-- The texts of two documents that differ only in groups of settings for hidden configurations. -/
def DifferOnlyIn (hidden : String → Bool) (text text' : String) : Prop :=
  ∃ root root', Xml.parse (Text.withoutMarks text) = .ok root ∧
    Xml.parse (Text.withoutMarks text') = .ok root' ∧
    shownParts hidden root = shownParts hidden root'

variable {hidden : String → Bool} {root root' : Element}

theorem groupsFor_eq_shownParts {name : String} (hname : hidden name = false) (tag : String) :
    groupsFor root tag name
      = ((shownParts hidden root).filter (·.name == tag)).filter (conditionOf · == name) := by
  simp only [groupsFor, Element.elementsNamed, shownParts, List.filter_filter]
  refine List.filter_congr fun group _ => ?_
  -- a group for this name is not hidden, and one for another name is in neither list
  by_cases h : conditionOf group = name
  · simp [h, hname]
  · have hne : (conditionOf group == name) = false := by simpa using h
    simp [hne]

theorem elementsNamed_eq_shownParts {tag : String} (hdefinitions : tag ≠ "ItemDefinitionGroup")
    (hproperties : tag ≠ "PropertyGroup") :
    root.elementsNamed tag = (shownParts hidden root).filter (·.name == tag) := by
  simp only [Element.elementsNamed, shownParts, List.filter_filter]
  refine List.filter_congr fun group _ => ?_
  -- an element with this tag gives no settings, so it is shown whatever is hidden
  by_cases h : group.name = tag
  · simp [givesSettings, h, hdefinitions, hproperties]
  · have hne : (group.name == tag) = false := by simpa using h
    simp [hne]

/-! ### What such documents have in common -/

/-- Two documents give the same under a condition. -/
structure AgreeFor (name : String) (document document' : ProjectDocument) : Prop where
  compile : document.compile.under name = document'.compile.under name
  kinds : document.kinds.under name = document'.kinds.under name
  output : document.output.under name = document'.output.under name

theorem agreeFor_ofRoot {name : String} (hname : hidden name = false)
    (hshown : shownParts hidden root = shownParts hidden root') (project : SolutionProject)
    (solutionDir : String) :
    AgreeFor name (ofRoot project solutionDir root) (ofRoot project solutionDir root') := by
  have hgroups : ∀ tag, groupsFor root tag name = groupsFor root' tag name := fun tag => by
    rw [groupsFor_eq_shownParts hname, groupsFor_eq_shownParts hname, hshown]
  constructor
  · rw [under_compile, under_compile, hgroups]
  · rw [under_kinds, under_kinds, hgroups]
  · rw [under_output, under_output, hgroups]

theorem items_ofRoot (hshown : shownParts hidden root = shownParts hidden root')
    (project : SolutionProject) (solutionDir : String) :
    (ofRoot project solutionDir root).items = (ofRoot project solutionDir root').items := by
  have h : root.elementsNamed "ItemGroup" = root'.elementsNamed "ItemGroup" := by
    rw [elementsNamed_eq_shownParts (by decide) (by decide), hshown,
      ← elementsNamed_eq_shownParts (by decide) (by decide)]
  simp only [ofRoot, h]

theorem hasExtensionTargets_ofRoot (hshown : shownParts hidden root = shownParts hidden root')
    (project : SolutionProject) (solutionDir : String) :
    (ofRoot project solutionDir root).hasExtensionTargets
      = (ofRoot project solutionDir root').hasExtensionTargets := by
  have h : root.elementsNamed "ImportGroup" = root'.elementsNamed "ImportGroup" := by
    rw [elementsNamed_eq_shownParts (by decide) (by decide), hshown,
      ← elementsNamed_eq_shownParts (by decide) (by decide)]
  simp only [ofRoot, h]

/-! ### Resolved settings -/

section Resolved

variable {document document' : ProjectDocument} {configuration : String}

theorem AgreeFor.defines (hall : AgreeFor "" document document')
    (hone : AgreeFor configuration document document') :
    document.defines configuration = document'.defines configuration := by
  rw [ProjectDocument.defines, ProjectDocument.defines,
    Conditioned.inForce_congr hall.compile hone.compile]

theorem AgreeFor.includeDirs (hall : AgreeFor "" document document')
    (hone : AgreeFor configuration document document')
    (hmacros : document.macros = document'.macros) :
    document.includeDirs configuration = document'.includeDirs configuration := by
  rw [ProjectDocument.includeDirs, ProjectDocument.includeDirs, hmacros,
    Conditioned.inForce_congr hall.compile hone.compile]

theorem AgreeFor.compileFlags (hall : AgreeFor "" document document')
    (hone : AgreeFor configuration document document') :
    document.compileFlags configuration = document'.compileFlags configuration := by
  rw [ProjectDocument.compileFlags, ProjectDocument.compileFlags,
    Conditioned.inForce_congr hall.compile hone.compile]

theorem AgreeFor.kind (hall : AgreeFor "" document document')
    (hone : AgreeFor configuration document document') :
    document.kind configuration = document'.kind configuration := by
  have hword : document.kindWord configuration = document'.kindWord configuration := by
    rw [kindWord, kindWord, Conditioned.last?_congr hall.kinds hone.kinds]
  rw [ProjectDocument.kind, ProjectDocument.kind, hword]

theorem AgreeFor.outputDir (hall : AgreeFor "" document document')
    (hone : AgreeFor configuration document document')
    (hmacros : document.macros = document'.macros) :
    document.outputDir configuration = document'.outputDir configuration := by
  rw [ProjectDocument.outputDir, ProjectDocument.outputDir, hmacros,
    Conditioned.last?_giving_congr _ hall.output hone.output]

theorem AgreeFor.targetName (hall : AgreeFor "" document document')
    (hone : AgreeFor configuration document document')
    (hproject : document.project = document'.project) :
    document.targetName configuration = document'.targetName configuration := by
  rw [ProjectDocument.targetName, ProjectDocument.targetName, hproject,
    Conditioned.last?_giving_congr _ hall.output hone.output]

theorem AgreeFor.binaryPath (hall : AgreeFor "" document document')
    (hone : AgreeFor configuration document document')
    (hproject : document.project = document'.project)
    (hmacros : document.macros = document'.macros) :
    document.binaryPath configuration = document'.binaryPath configuration := by
  rw [ProjectDocument.binaryPath, ProjectDocument.binaryPath, hall.outputDir hone hmacros,
    hall.targetName hone hproject, hall.kind hone]

end Resolved

end ProjectDocument

/-! ### Projects of a solution -/

open ProjectDocument

/-- What documents that agree give in a configuration of their solution. -/
theorem targetSettings_congr {settings : ImportSettings} {solution : Solution}
    {document document' : ProjectDocument} {configuration : String}
    (hproject : document.project = document'.project)
    (hmacros : document.macros = document'.macros) (hall : AgreeFor "" document document')
    (hone : AgreeFor (solution.projectConfiguration document.project.guid configuration)
      document document') :
    targetSettings settings solution document configuration
      = targetSettings settings solution document' configuration := by
  simp only [targetSettings, ← hproject, hall.kind hone, hall.binaryPath hone hproject hmacros,
    hall.defines hone, hall.includeDirs hone hmacros, hall.compileFlags hone]

theorem agreeAt_toProject {settings : ImportSettings} {solution : Solution}
    {document document' : ProjectDocument} {configuration : String}
    (hsettings : targetSettings settings solution document configuration
      = targetSettings settings solution document' configuration) :
    (toProject settings solution document).AgreeAt configuration
      (toProject settings solution document') := by
  refine Project.agreeAt_ofTarget ?_ ..
  rw [SortedMap.find?_ofList_names, SortedMap.find?_ofList_names, hsettings]

/-- A document is read from the element at the top of its text. -/
theorem exists_root_of_parse {project : SolutionProject} {solutionDir text : String}
    {document : ProjectDocument} (h : parse project solutionDir text = .ok document) :
    ∃ root, Xml.parse (Text.withoutMarks text) = .ok root ∧ root.name = "Project" ∧
      document = ofRoot project solutionDir root := by
  unfold parse at h
  cases hroot : Xml.parse (Text.withoutMarks text) with
  | error fault =>
      rw [hroot] at h
      exact nomatch h
  | ok root =>
      rw [hroot] at h
      by_cases hname : root.name = "Project"
      · simp only [hname, ↓reduceIte, Except.ok.injEq] at h
        exact ⟨root, rfl, hname, h.symm⟩
      · simp only [hname, ↓reduceIte] at h
        exact nomatch h

section Hidden

variable {hidden : String → Bool} {project : SolutionProject} {solution : Solution}
  {first second : String} {document document' : ProjectDocument}

theorem exists_roots_of_differOnlyIn
    (hfirst : parse project solution.directory first = .ok document)
    (hsecond : parse project solution.directory second = .ok document')
    (hdiffer : DifferOnlyIn hidden first second) :
    ∃ root root', shownParts hidden root = shownParts hidden root' ∧
      document = ofRoot project solution.directory root ∧
      document' = ofRoot project solution.directory root' := by
  obtain ⟨root, root', hroot, hroot', hshown⟩ := hdiffer
  obtain ⟨r, hr, -, rfl⟩ := exists_root_of_parse hfirst
  obtain ⟨r', hr', -, rfl⟩ := exists_root_of_parse hsecond
  rw [hroot] at hr
  rw [hroot'] at hr'
  obtain rfl := Except.ok.inj hr
  obtain rfl := Except.ok.inj hr'
  exact ⟨_, _, hshown, rfl, rfl⟩

/-- Groups for hidden configurations do not tell what a project is and which files it has. -/
theorem toProject_congr_of_differOnlyIn (settings : ImportSettings)
    (hfirst : parse project solution.directory first = .ok document)
    (hsecond : parse project solution.directory second = .ok document')
    (hdiffer : DifferOnlyIn hidden first second) :
    let p := toProject settings solution document
    let q := toProject settings solution document'
    p.name = q.name ∧ p.fullName = q.fullName ∧ p.files = q.files ∧
      p.isReadOnly = q.isReadOnly := by
  intro p q
  obtain ⟨root, root', hshown, rfl, rfl⟩ := exists_roots_of_differOnlyIn hfirst hsecond hdiffer
  have hitems := items_ofRoot hshown project solution.directory
  have htargets := hasExtensionTargets_ofRoot hshown project solution.directory
  refine ⟨?_, ?_, ?_, ?_⟩
  · simp only [p, q, toProject, Project.ofTarget_name]
    rfl
  · simp only [p, q, toProject, Project.ofTarget_fullName]
    rfl
  · simp only [p, q, toProject, Project.ofTarget_files, files, hitems]
  · simp only [p, q, toProject, Project.ofTarget_isReadOnly, htargets]

/-- Groups for hidden configurations are not seen where another one is active. -/
theorem agreeAt_of_differOnlyIn (settings : ImportSettings) (hall : hidden "" = false)
    (hfirst : parse project solution.directory first = .ok document)
    (hsecond : parse project solution.directory second = .ok document')
    (hdiffer : DifferOnlyIn hidden first second) {configuration : String}
    (hone : hidden (solution.projectConfiguration project.guid configuration) = false) :
    (toProject settings solution document).AgreeAt configuration
      (toProject settings solution document') := by
  obtain ⟨root, root', hshown, rfl, rfl⟩ := exists_roots_of_differOnlyIn hfirst hsecond hdiffer
  have hagree := fun {name : String} (hname : hidden name = false) =>
    agreeFor_ofRoot hname hshown project solution.directory
  exact agreeAt_toProject (targetSettings_congr rfl rfl (hagree hall) (hagree hone))

end Hidden

/-- All maps of a solution's projects have the configurations of the solution as keys. -/
theorem exists_keyedBy_toProject (settings : ImportSettings) (solution : Solution) :
    ∃ names, (∀ configuration, configuration ∈ names ↔ configuration ∈ solution.configurations) ∧
      ∀ document, (toProject settings solution document).KeyedBy names := by
  -- the keys are those of a map with any value for each configuration
  refine ⟨(SortedMap.ofList (solution.configurations.map fun name => (name, ()))).keys,
    SortedMap.mem_keys_ofList_names _ _, fun document => ?_⟩
  have hkeys : (SortedMap.ofList (solution.configurations.map fun name => (name, ()))).keys
      = (SortedMap.ofList (solution.configurations.map fun name =>
          (name, targetSettings settings solution document name))).keys :=
    SortedMap.keys_eq_of_mem_iff fun name => by
      rw [SortedMap.mem_keys_ofList_names, SortedMap.mem_keys_ofList_names]
  rw [hkeys]
  exact Project.keyedBy_ofTarget ..

/-- A configuration of a solution that no line about the project names leads to no configuration of
the project. -/
theorem projectConfiguration_eq_empty {solution : Solution} {guid configuration : String}
    (h : ∀ entry ∈ solution.active, entry.1 = projectKey guid → entry.2.1 ≠ configuration) :
    solution.projectConfiguration guid configuration = "" := by
  rw [Solution.projectConfiguration, List.filter_eq_nil_iff.2 fun entry hentry => ?_]
  · rfl
  · by_cases hkey : entry.1 = projectKey guid
    · simp [hkey, h entry hentry hkey]
    · simp [hkey]

/-- The settings of a project where `k` is not active do not depend on the groups for `k`, and
those where nothing is active depend on no group with a condition. -/
theorem toProject_noninterference (settings : ImportSettings) (path text : String)
    (project : SolutionProject) (first second : String) (document document' : ProjectDocument)
    (hfirst : parse project (Solution.parse path text).directory first = .ok document)
    (hsecond : parse project (Solution.parse path text).directory second = .ok document') :
    let solution := Solution.parse path text
    let p := toProject settings solution document
    let q := toProject settings solution document'
    (∀ k, k ≠ "" → DifferOnlyIn (· == k) first second →
      (p.name = q.name ∧ p.fullName = q.fullName ∧ p.files = q.files ∧
        p.isReadOnly = q.isReadOnly) ∧
      (∃ names, p.KeyedBy names ∧ q.KeyedBy names ∧
        ∀ configuration, configuration ∈ names ↔ configuration ∈ solution.configurations) ∧
      ∀ configuration, solution.projectConfiguration project.guid configuration ≠ k →
        p.AgreeAt configuration q) ∧
    (DifferOnlyIn (· != "") first second → ∀ configuration,
      (∀ entry ∈ solution.active, entry.1 = projectKey project.guid → entry.2.1 ≠ configuration) →
        p.AgreeAt configuration q) := by
  intro solution p q
  refine ⟨fun k hk hdiffer => ⟨?_, ?_, fun configuration hone => ?_⟩,
    fun hdiffer configuration hnone => ?_⟩
  · exact toProject_congr_of_differOnlyIn settings hfirst hsecond hdiffer
  · obtain ⟨names, hnames, hkeyed⟩ := exists_keyedBy_toProject settings solution
    exact ⟨names, hkeyed document, hkeyed document', hnames⟩
  · exact agreeAt_of_differOnlyIn settings (by simpa using hk.symm) hfirst hsecond hdiffer
      (by simpa using hone)
  · exact agreeAt_of_differOnlyIn settings rfl hfirst hsecond hdiffer
      (by rw [projectConfiguration_eq_empty hnone]; rfl)

/-- The element at the top of a text whose reading passes a check. -/
theorem exists_root_of_any {text : String} {check : Xml.Element → Bool}
    (h : (Xml.parse (Text.withoutMarks text)).toOption.any check = true) :
    ∃ root, Xml.parse (Text.withoutMarks text) = .ok root ∧ check root = true := by
  cases hroot : Xml.parse (Text.withoutMarks text) with
  | error fault => simp [hroot, Except.toOption] at h
  | ok root => exact ⟨root, rfl, by simpa [hroot, Except.toOption] using h⟩

theorem parse_of_root {text : String} {root : Xml.Element} (project : SolutionProject)
    (solutionDir : String) (hroot : Xml.parse (Text.withoutMarks text) = .ok root)
    (hname : root.name = "Project") :
    parse project solutionDir text = .ok (ofRoot project solutionDir root) := by
  rw [parse, hroot]
  exact if_pos hname

/-- A solution with two configurations, of which one leads to a configuration of its project. -/
def sampleSolution : String :=
  "GlobalSection(SolutionConfigurationPlatforms)\nc\nd\nEndGlobalSection\n" ++
    "GlobalSection(ProjectConfigurationPlatforms)\nA.c.ActiveCfg=m"

/-- A project as the solution lists it. -/
def sampleProject : SolutionProject where
  name := "app"
  path := "app.vcxproj"
  guid := "A"

/-- A document that names its target for `k` only. -/
def sampleText : String :=
  "<Project><PropertyGroup Condition=\"==k\"><TargetName>x</TargetName></PropertyGroup></Project>"

/-- A target's name for `k` is not seen where `m` is active, nor where nothing is, and the projects
have settings for both. -/
theorem toProject_noninterference_sample :
    let solution := Solution.parse "a.sln" sampleSolution
    ∃ document document', parse sampleProject solution.directory sampleText = .ok document ∧
      parse sampleProject solution.directory "<Project/>" = .ok document' ∧
      document.targetName "k" = "x" ∧ document'.targetName "k" = "app" ∧
      solution.configurations = ["c", "d"] ∧
      (∃ names, (toProject {} solution document).KeyedBy names ∧
        (toProject {} solution document').KeyedBy names ∧
        ∀ configuration, configuration ∈ names ↔ configuration ∈ solution.configurations) ∧
      (toProject {} solution document).AgreeAt "c" (toProject {} solution document') ∧
      (toProject {} solution document).AgreeAt "d" (toProject {} solution document') := by
  have hentries : SolutionEntry.ofText sampleSolution
      = [.configuration "c", .configuration "d", .active "A" "c" "m"] := by
    decide +kernel
  have hconfigurations : (Solution.parse "a.sln" sampleSolution).configurations = ["c", "d"] := by
    rw [Solution.parse, hentries]
    decide
  have hactive : (Solution.parse "a.sln" sampleSolution).active = [("a", "c", "m")] := by
    rw [Solution.parse, hentries]
    decide +kernel
  have hfirst : (Xml.parse (Text.withoutMarks sampleText)).toOption.any (fun root =>
      root.name == "Project" && (shownParts (· == "k") root).isEmpty &&
        (shownParts (· != "") root).isEmpty &&
        (ofRoot sampleProject (Solution.parse "a.sln" sampleSolution).directory root).targetName "k"
          == "x") = true := by
    decide +kernel
  have hsecond : (Xml.parse (Text.withoutMarks "<Project/>")).toOption.any (fun root =>
      root.name == "Project" && root.elements.isEmpty &&
        (ofRoot sampleProject (Solution.parse "a.sln" sampleSolution).directory root).targetName "k"
          == "app") = true := by
    decide +kernel
  intro solution
  obtain ⟨root, hroot, hcheck⟩ := exists_root_of_any hfirst
  obtain ⟨root', hroot', hcheck'⟩ := exists_root_of_any hsecond
  simp only [Bool.and_eq_true, beq_iff_eq, List.isEmpty_iff] at hcheck hcheck'
  obtain ⟨⟨⟨hname, hk⟩, hany⟩, htarget⟩ := hcheck
  obtain ⟨⟨hname', helements⟩, htarget'⟩ := hcheck'
  have hshown (hidden : String → Bool) : shownParts hidden root' = [] := by
    rw [shownParts, helements, List.filter_nil]
  have hdocument := parse_of_root sampleProject solution.directory hroot hname
  have hdocument' := parse_of_root sampleProject solution.directory hroot' hname'
  obtain ⟨hone, hnone⟩ := toProject_noninterference {} "a.sln" sampleSolution sampleProject
    sampleText "<Project/>" _ _ hdocument hdocument'
  have hdiffer : DifferOnlyIn (· == "k") sampleText "<Project/>" :=
    ⟨root, root', hroot, hroot', by rw [hk, hshown]⟩
  obtain ⟨-, hkeyed, hagree⟩ := hone "k" (by decide) hdiffer
  refine ⟨_, _, hdocument, hdocument', htarget, htarget', hconfigurations, hkeyed, ?_, ?_⟩
  · refine hagree "c" ?_
    rw [Solution.projectConfiguration, hactive]
    decide +kernel
  · refine hnone ⟨root, root', hroot, hroot', ?_⟩ "d" ?_
    · rw [hany, hshown]
    · rw [hactive]
      simp

end BuildAtlas.VisualStudio
