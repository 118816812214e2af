import BuildAtlas.Proofs.FileTree
import BuildAtlas.Proofs.Imported
import BuildAtlas.Proofs.VisualStudio.Noninterference

/-!
# BuildAtlas.Proofs.VisualStudio.Members

The projects of a solution are read each for itself.

`rootAt?` gives the top element of a project document, where a tree has a usable one: a file that
holds UTF-8, well-formed, with `Project` at its top. These are the documents of which a solution's
projects are made (`toOption_load`), so one that is missing or broken takes its own project away and
no other (`load_of_readText`).
-/

namespace BuildAtlas.VisualStudio

/-! ### Usable documents -/

/-- The top element of a document with this content. -/
def rootOf? (content : ByteArray) : Option Xml.Element := do
  let text ← String.fromUTF8? content
  let root ← (Xml.parse (Text.withoutMarks text)).toOption
  if root.name = "Project" then some root else none

/-- The top element of the document that a path leads to. -/
def rootAt? (tree : FileTree) (path : String) : Option Xml.Element :=
  match (tree.lookup path).toOption with
  | some (.file content) => rootOf? content
  | _ => none

/-- There is a document with this top element: a file that holds UTF-8 and is well-formed. -/
structure HasRoot (tree : FileTree) (path : String) (root : Xml.Element) : Prop where
  exists_text : ∃ content text, tree.lookup path = .ok (.file content) ∧
    String.fromUTF8? content = some text ∧ Xml.parse (Text.withoutMarks text) = .ok root
  name_eq : root.name = "Project"

theorem rootOf?_eq_some_iff {content : ByteArray} {root : Xml.Element} :
    rootOf? content = some root ↔ (∃ text, String.fromUTF8? content = some text ∧
      Xml.parse (Text.withoutMarks text) = .ok root) ∧ root.name = "Project" := by
  simp only [rootOf?, Option.bind_eq_bind, Option.bind_eq_some_iff, FileTree.toOption_eq_some_iff,
    Option.ite_none_right_eq_some, Option.some.injEq]
  constructor
  · rintro ⟨text, htext, root, hroot, hname, rfl⟩
    exact ⟨⟨text, htext, hroot⟩, hname⟩
  · rintro ⟨⟨text, htext, hroot⟩, hname⟩
    exact ⟨text, htext, root, hroot, hname, rfl⟩

theorem rootAt?_eq_some_iff {tree : FileTree} {path : String} {root : Xml.Element} :
    rootAt? tree path = some root ↔ HasRoot tree path root := by
  rw [rootAt?]
  constructor
  · intro h
    split at h
    · rename_i content hentry
      obtain ⟨⟨text, htext, hroot⟩, hname⟩ := rootOf?_eq_some_iff.1 h
      exact ⟨⟨content, text, FileTree.toOption_eq_some_iff.1 hentry, htext, hroot⟩, hname⟩
    · exact nomatch h
  · rintro ⟨⟨content, text, hentry, htext, hroot⟩, hname⟩
    rw [hentry]
    exact rootOf?_eq_some_iff.2 ⟨⟨text, htext, hroot⟩, hname⟩

/-- A document is loaded exactly when it is a usable one. -/
theorem load_eq_ok_iff {tree : FileTree} {project : SolutionProject} {solutionDir : String}
    {document : ProjectDocument} : ProjectDocument.load tree project solutionDir = .ok document ↔
      ∃ root, HasRoot tree project.path root ∧ .ofRoot project solutionDir root = document := by
  rw [ProjectDocument.load]
  constructor
  · intro h
    split at h
    · split at h
      · rename_i text htext
        obtain ⟨content, hentry, hcontent⟩ := FileTree.readText_eq_ok_iff.1 htext
        obtain ⟨root, hroot, hname, rfl⟩ := exists_root_of_parse h
        exact ⟨root, ⟨⟨content, text, hentry, hcontent, hroot⟩, hname⟩, rfl⟩
      · exact nomatch h
    · exact nomatch h
  · rintro ⟨root, ⟨⟨content, text, hentry, hcontent, hroot⟩, hname⟩, rfl⟩
    have htext := FileTree.readText_eq_ok_iff.2 ⟨content, hentry, hcontent⟩
    rw [if_pos (FileTree.has_of_readText_eq_ok htext), htext]
    exact parse_of_root project solutionDir hroot hname

theorem toOption_load (tree : FileTree) (project : SolutionProject) (solutionDir : String) :
    (ProjectDocument.load tree project solutionDir).toOption =
      (rootAt? tree project.path).map (.ofRoot project solutionDir) := by
  ext document
  rw [FileTree.toOption_eq_some_iff, load_eq_ok_iff, Option.map_eq_some_iff]
  simp only [rootAt?_eq_some_iff]

/-! ### Solutions -/

/-- The project that a solution gets from an entry and the document of this entry. -/
def model (settings : ImportSettings) (solution : Solution) (project : SolutionProject)
    (root : Xml.Element) : Project :=
  toProject settings solution (.ofRoot project solution.directory root)

/-- The projects that entries of a solution give: one for each with a usable document. -/
def modelsOf (settings : ImportSettings) (solution : Solution) (tree : FileTree)
    (entries : List SolutionProject) : List Project :=
  entries.filterMap fun project =>
    (rootAt? tree project.path).map (model settings solution project)

theorem map_toProject_documents (settings : ImportSettings) (tree : FileTree)
    (solution : Solution) : (documents tree solution).map (toProject settings solution) =
      modelsOf settings solution tree solution.projects := by
  rw [documents, List.map_filterMap]
  refine List.filterMap_congr fun project _ => ?_
  rw [toOption_load, Option.map_map]
  rfl

theorem load_of_readText (settings : ImportSettings) {tree : FileTree} {path text : String}
    (h : tree.readText path = .ok text) :
    load settings tree path = .ok {
      projects := modelsOf settings (.parse path text) tree (Solution.parse path text).projects
      configurations := (Solution.parse path text).configurations } := by
  rw [load, Imported.ofDocument_of_readText h, ← map_toProject_documents]
  rfl

/-! ### Damaged documents -/

section Damaged

variable {damaged : Location → Bool} {tree tree' : FileTree} {path : String}

theorem rootAt?_eq_of_damaged (h : tree.Damaged damaged (rootOf? · = none) tree') (path : String) :
    rootAt? tree' path = if tree.leadsTo damaged path then none else rootAt? tree path := by
  cases hpath : tree.leadsTo damaged path with
  | true =>
      rw [rootAt?]
      rcases h.toOption_lookup_cases hpath with hgone | ⟨content, huseless, hfile⟩
      · rw [hgone]
        rfl
      · rw [hfile]
        exact huseless
  | false =>
      rw [rootAt?, h.toOption_lookup_eq hpath]
      rfl

theorem modelsOf_eq_of_damaged (h : tree.Damaged damaged (rootOf? · = none) tree')
    (settings : ImportSettings) (solution : Solution) (entries : List SolutionProject) :
    modelsOf settings solution tree' entries =
      modelsOf settings solution tree (entries.filter (!tree.leadsTo damaged ·.path)) := by
  rw [modelsOf, modelsOf, List.filterMap_filter]
  refine List.filterMap_congr fun project _ => ?_
  rw [rootAt?_eq_of_damaged h]
  cases tree.leadsTo damaged project.path with
  | true => rfl
  | false => rfl

end Damaged

/-- A solution that can be read is imported. Its configurations are those in its text, and its
projects, in the order of the entries, those of the entries with a usable document: a file that
holds UTF-8, well-formed, with `Project` at its top. Where such files are deleted or made useless,
just the projects of the entries that lead to them are gone, and the others are what they were. -/
theorem load_isolates_damage (settings : ImportSettings) {tree : FileTree} {path text : String}
    (htext : tree.readText path = .ok text) :
    let solution := Solution.parse path text
    (∀ project root, rootAt? tree project = some root ↔ HasRoot tree project root) ∧
    load settings tree path = .ok {
      projects := modelsOf settings solution tree solution.projects
      configurations := solution.configurations } ∧
    ∀ damaged tree', tree.Damaged damaged (rootOf? · = none) tree' →
      tree.leadsTo damaged path = false →
      load settings tree' path = .ok {
        projects := modelsOf settings solution tree
          (solution.projects.filter (!tree.leadsTo damaged ·.path))
        configurations := solution.configurations } := by
  intro solution
  refine ⟨fun _ _ => rootAt?_eq_some_iff, load_of_readText settings htext, ?_⟩
  intro damaged tree' h hpath
  rw [load_of_readText settings (h.readText_eq_ok hpath htext), modelsOf_eq_of_damaged h]

/-- A solution of two projects. -/
def twoMembersText : String :=
  "Project() = app, app.vcxproj, A\nProject() = lib, lib.vcxproj, B"

/-- A tree with this solution and its documents. -/
def twoMembers : FileTree where
  files := [(["a.sln"], twoMembersText.toUTF8), (["app.vcxproj"], "<Project/>".toUTF8),
    (["lib.vcxproj"], "<Project/>".toUTF8)]

/-- When one document is deleted, the other project stays. -/
theorem load_isolates_damage_twoMembers :
    let lost : Location → Bool := (· == ["lib.vcxproj"])
    let solution := Solution.parse "a.sln" twoMembersText
    let kept := solution.projects.filter (!twoMembers.leadsTo lost ·.path)
    kept.map (·.name) = ["app"] ∧
      load {} (twoMembers.damage lost fun _ => none) "a.sln" = .ok {
        projects := modelsOf {} solution twoMembers kept
        configurations := solution.configurations } := by
  intro lost solution kept
  have htext : twoMembers.readText "a.sln" = .ok twoMembersText :=
    FileTree.readText_eq_ok_iff.2 ⟨_, rfl, Text.fromUTF8?_toUTF8 _⟩
  have hlost : twoMembers.Damaged lost (rootOf? · = none)
      (twoMembers.damage lost fun _ => none) := by
    refine FileTree.damaged_damage (fun place hplace => ?_) (fun place hplace => ?_) nofun
    · obtain rfl := beq_iff_eq.1 hplace
      exact ⟨_, rfl⟩
    · obtain rfl := beq_iff_eq.1 hplace
      rfl
  have hpath : twoMembers.leadsTo lost "a.sln" = false := by decide +kernel
  refine ⟨by decide +kernel, ?_⟩
  exact (load_isolates_damage {} htext).2.2 lost _ hlost hpath

end BuildAtlas.VisualStudio
