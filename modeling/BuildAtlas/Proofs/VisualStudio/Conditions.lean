import BuildAtlas.VisualStudio.ProjectDocument
import Mathlib.Data.List.Basic

/-!
# BuildAtlas.Proofs.VisualStudio.Conditions

What a project document gives under one condition.

`groupsFor` lists the groups with a name whose condition names a configuration. Everything that a
document gives for a configuration comes from these groups: `under_compile`, `under_link`,
`under_kinds` and `under_output` compute it from them, so a question about conditions becomes one
about lists of elements.
-/

namespace BuildAtlas.VisualStudio

/-! ### Given things -/

namespace Conditioned

variable {α β γ : Type}

theorem under_append (name : String) (given given' : Conditioned α) :
    under name (given ++ given') = under name given ++ under name given' := by
  simp [under]

theorem under_map_key (name key : String) (as : List α) :
    under name (as.map fun a => (key, a)) = if key = name then as else [] := by
  by_cases h : key = name
  · simp [under, List.filter_map, h, Function.comp_def]
  · simp [under, List.filter_map, h, Function.comp_def]

/-- What sources give under a name is what the sources with this name give. -/
theorem under_flatMap_key (key : β → String) (give : β → List α) (name : String)
    (sources : List β) :
    under name (sources.flatMap fun b => (give b).map fun a => (key b, a))
      = (sources.filter (key · == name)).flatMap give := by
  induction sources with
  | nil => rfl
  | cons b rest ih =>
      rw [List.flatMap_cons, under_append, under_map_key, ih]
      by_cases h : key b = name
      · rw [if_pos h, List.filter_cons_of_pos (by simpa using h), List.flatMap_cons]
      · rw [if_neg h, List.filter_cons_of_neg (by simpa using h), List.nil_append]

theorem under_giving (name : String) (value? : α → Option β) (given : Conditioned α) :
    under name (given.giving value?) = (under name given).filterMap value? := by
  have hgiving : given.giving value?
      = given.flatMap fun entry => (value? entry.2).toList.map fun b => (entry.1, b) := by
    rw [giving, List.filterMap_eq_flatMap_toList]
    congr 1
    funext entry
    cases hvalue : value? entry.2 with
    | none => simp [hvalue]
    | some b => simp [hvalue]
  rw [hgiving, under_flatMap_key, under, List.filterMap_map, List.filterMap_eq_flatMap_toList]
  rfl

theorem inForce_congr {configuration : String} {given given' : Conditioned α}
    (hall : under "" given = under "" given')
    (hone : under configuration given = under configuration given') :
    inForce configuration given = inForce configuration given' := by
  rw [inForce, inForce, hall, hone]

theorem last?_congr {configuration : String} {given given' : Conditioned α}
    (hall : under "" given = under "" given')
    (hone : under configuration given = under configuration given') :
    last? configuration given = last? configuration given' := by
  rw [last?, last?, hall, hone]

theorem last?_giving_congr {configuration : String} {given given' : Conditioned α}
    (value? : α → Option β) (hall : under "" given = under "" given')
    (hone : under configuration given = under configuration given') :
    last? configuration (given.giving value?) = last? configuration (given'.giving value?) := by
  apply last?_congr
  · rw [under_giving, under_giving, hall]
  · rw [under_giving, under_giving, hone]

end Conditioned

/-! ### Groups -/

namespace ProjectDocument

open Xml (Element)

/-- The groups with a name whose condition names a configuration. -/
def groupsFor (root : Element) (tag configuration : String) : List Element :=
  (root.elementsNamed tag).filter (conditionOf · == configuration)

theorem definitions_eq {α : Type} (name : String) (value : Element → α) (group : Element) :
    definitions name value group
      = ((group.elementsNamed name).map value).map fun a => (conditionOf group, a) := by
  rw [definitions, List.map_map]
  rfl

variable (project : SolutionProject) (solutionDir : String) (root : Element) (name : String)

theorem under_compile :
    (ofRoot project solutionDir root).compile.under name
      = (groupsFor root "ItemDefinitionGroup" name).flatMap fun group =>
          (group.elementsNamed "ClCompile").map
            (compileSettingsOf (Path.directory project.path)) := by
  rw [groupsFor, ← Conditioned.under_flatMap_key]
  simp only [ofRoot, funext (definitions_eq "ClCompile" _)]

theorem under_link :
    (ofRoot project solutionDir root).link.under name
      = (groupsFor root "ItemDefinitionGroup" name).flatMap fun group =>
          (group.elementsNamed "Link").map linkValuesOf := by
  rw [groupsFor, ← Conditioned.under_flatMap_key]
  simp only [ofRoot, funext (definitions_eq "Link" _)]

/-- The word for what the project makes that a group gives. -/
def kindWordOf? (group : Element) : Option String :=
  if label? group = some "Configuration" then
    (group.childText? "ConfigurationType").map Text.trim
  else none

theorem under_kinds :
    (ofRoot project solutionDir root).kinds.under name
      = (groupsFor root "PropertyGroup" name).flatMap fun group => (kindWordOf? group).toList := by
  rw [groupsFor, ← Conditioned.under_flatMap_key]
  congr 1
  show ((root.elementsNamed "PropertyGroup").filter _).filterMap _ = _
  rw [List.filterMap_filter, List.filterMap_eq_flatMap_toList]
  congr 1
  funext group
  by_cases h : label? group = some "Configuration"
  · cases hword : group.childText? "ConfigurationType" with
    | none => simp [kindWordOf?, h, hword]
    | some word => simp [kindWordOf?, h, hword]
  · simp [kindWordOf?, h]

theorem under_output :
    (ofRoot project solutionDir root).output.under name
      = (groupsFor root "PropertyGroup" name).flatMap fun group =>
          if label? group = none then [outputValuesOf group] else [] := by
  rw [groupsFor, ← Conditioned.under_flatMap_key]
  congr 1
  show ((root.elementsNamed "PropertyGroup").filter _).map _ = _
  rw [← List.filterMap_eq_map, List.filterMap_filter, List.filterMap_eq_flatMap_toList]
  congr 1
  funext group
  by_cases h : label? group = none
  · simp [h]
  · simp [h]

end ProjectDocument

end BuildAtlas.VisualStudio
