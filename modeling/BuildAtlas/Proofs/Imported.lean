import BuildAtlas.Proofs.Project.Configurations
import BuildAtlas.Proofs.VisualStudio.Solution
import BuildAtlas.SourceFormat

/-!
# BuildAtlas.Proofs.Imported

The configuration names in what is imported.

A format without configurations keeps all settings under the empty name and reports no names. A
solution reports its configurations, and its projects have settings in these only. `Imported.Fits`
says this of one document and `fits_of_load` proves it of every document that a format imports.
-/

namespace BuildAtlas

namespace Imported

/-- What is made of the things of a list, one for each that is kept. -/
theorem forall₂_filterMap {α β : Type} (related : β → α → Prop) (kept : α → Prop)
    [DecidablePred kept] {make? : α → Option β}
    (hkept : ∀ item, kept item → ∃ made, make? item = some made ∧ related made item)
    (hdropped : ∀ item, ¬ kept item → make? item = none) (items : List α) :
    List.Forall₂ related (items.filterMap make?) (items.filter fun item => kept item) := by
  induction items with
  | nil => exact .nil
  | cons item items ih =>
      by_cases h : kept item
      · obtain ⟨made, hmade, hrelated⟩ := hkept item h
        rw [List.filterMap_cons_some hmade, List.filter_cons_of_pos (by simpa using h)]
        exact .cons hrelated ih
      · rw [List.filterMap_cons_none (hdropped item h), List.filter_cons_of_neg (by simpa using h)]
        exact ih

/-- The keys of the projects' maps and the reported names are those that the format knows. -/
def Fits (format : SourceFormat) (found : Imported) : Prop :=
  match format with
  | .gn | .codeBlocks => found.configurations = [] ∧ ∀ p ∈ found.projects, p.KeyedBy [""]
  | .visualStudio => "" ∉ found.configurations ∧
      ∀ p ∈ found.projects, ∃ names, p.KeyedBy names ∧ names ⊆ found.configurations

/-- What describes nothing fits every format. -/
theorem fits_empty (format : SourceFormat) : Fits format {} := by
  cases format with
  | gn => exact ⟨rfl, nofun⟩
  | visualStudio => exact ⟨List.not_mem_nil, nofun⟩
  | codeBlocks => exact ⟨rfl, nofun⟩

/-- A document is missing, or its text is read. -/
theorem ofDocument_cases {tree : FileTree} {path : String} {read : String → Except Error Imported}
    {found : Imported} (h : ofDocument tree path read = .ok found) :
    found = {} ∨ ∃ text, tree.readText path = .ok text ∧ read text = .ok found := by
  unfold ofDocument at h
  by_cases hpresent : tree.has path = true
  · rw [if_pos hpresent] at h
    cases htext : tree.readText path with
    | error fault =>
        rw [htext] at h
        exact nomatch h
    | ok text =>
        rw [htext] at h
        exact .inr ⟨text, rfl, h⟩
  · rw [if_neg hpresent] at h
    exact .inl (Except.ok.inj h).symm

theorem ofDocument_of_readText {tree : FileTree} {path text : String}
    (h : tree.readText path = .ok text)
    (read : String → Except Error Imported) : ofDocument tree path read = read text := by
  rw [ofDocument, if_pos (FileTree.has_of_readText_eq_ok h), h]

/-- A document that cannot be read is missing, or its fault is reported. -/
theorem ofDocument_of_readText_error {tree : FileTree} {path : String} {fault : FileTree.Fault}
    (h : tree.readText path = .error fault) (read : String → Except Error Imported) :
    ofDocument tree path read = .ok {} ∨ ofDocument tree path read = .error (.file fault) := by
  rw [ofDocument, h]
  by_cases hhas : tree.has path = true
  · exact .inr (if_pos hhas)
  · exact .inl (if_neg hhas)

end Imported

open Imported (Fits)

/-- A project with settings under one name only. -/
theorem Project.keyedBy_singleton (name fullName : String) (files : List String) (key : String)
    (settings : TargetSettings) (isReadOnly : Bool) :
    (ofTarget name fullName files (.ofList [(key, settings)]) isReadOnly).KeyedBy [key] :=
  keyedBy_ofTarget name fullName files (.ofList [(key, settings)]) isReadOnly

/-! ### The formats -/

theorem Gn.fits_of_load {settings : ImportSettings} {tree : FileTree} {path : String}
    {found : Imported} (h : Gn.load settings tree path = .ok found) : Fits .gn found := by
  rcases Imported.ofDocument_cases h with rfl | ⟨text, -, hread⟩
  · exact Imported.fits_empty .gn
  · cases hdecode : Description.codec.decode text with
    | error fault => simp [hdecode] at hread
    | ok description =>
        simp only [hdecode, Except.ok.injEq] at hread
        obtain rfl := hread
        refine ⟨rfl, fun p hp => ?_⟩
        obtain ⟨⟨label, target⟩, -, hproject⟩ := List.mem_filterMap.1 hp
        simp only [toProject?, Option.ite_none_right_eq_some, Option.some.injEq] at hproject
        obtain ⟨-, rfl⟩ := hproject
        exact Project.keyedBy_singleton ..

theorem CodeBlocks.fits_of_load {tree : FileTree} {path : String} {found : Imported}
    (h : CodeBlocks.load tree path = .ok found) : Fits .codeBlocks found := by
  rcases Imported.ofDocument_cases h with rfl | ⟨text, -, hread⟩
  · exact Imported.fits_empty .codeBlocks
  · cases hparse : parse path text with
    | error e => simp [hparse, bind, Except.bind] at hread
    | ok targets =>
        simp only [hparse, bind, Except.bind, pure, Except.pure, Except.ok.injEq] at hread
        obtain rfl := hread
        refine ⟨rfl, fun p hp => ?_⟩
        obtain ⟨⟨target, files⟩, -, hproject⟩ := List.mem_filterMap.1 hp
        simp only [Target.toProject?, Option.bind_eq_bind, Option.bind_eq_some_iff, Option.pure_def,
          Option.some.injEq] at hproject
        obtain ⟨kind, -, rfl⟩ := hproject
        exact Project.keyedBy_singleton ..

theorem VisualStudio.fits_imported (settings : ImportSettings) {solution : Solution}
    (h : "" ∉ solution.configurations) (documents : List ProjectDocument) :
    Fits .visualStudio (imported settings solution documents) := by
  refine ⟨h, fun p hp => ?_⟩
  obtain ⟨document, -, rfl⟩ := List.mem_map.1 hp
  refine ⟨_, Project.keyedBy_ofTarget .., fun name hname => ?_⟩
  exact (SortedMap.mem_keys_ofList_names _ _ _).1 hname

theorem VisualStudio.fits_of_load {settings : ImportSettings} {tree : FileTree} {path : String}
    {found : Imported} (h : VisualStudio.load settings tree path = .ok found) :
    Fits .visualStudio found := by
  rcases Imported.ofDocument_cases h with rfl | ⟨text, -, hread⟩
  · exact Imported.fits_empty .visualStudio
  · have hempty := Solution.empty_not_mem_configurations path text
    generalize Solution.parse path text = solution at hread hempty
    obtain rfl := Except.ok.inj hread
    exact VisualStudio.fits_imported settings hempty _

/-- Every document that a format imports has the configuration names that the format knows. -/
theorem SourceFormat.fits_of_load {format : SourceFormat} {settings : ImportSettings}
    {tree : FileTree} {path : String} {found : Imported}
    (h : format.load settings tree path = .ok found) : Fits format found := by
  cases format with
  | gn => exact Gn.fits_of_load h
  | visualStudio => exact VisualStudio.fits_of_load h
  | codeBlocks => exact CodeBlocks.fits_of_load h

end BuildAtlas
