import BuildAtlas.Proofs.LastGiven
import BuildAtlas.Proofs.VisualStudio.Noninterference
import BuildAtlas.Proofs.Xml.Document
import Mathlib.Data.List.Forall2

/-!
# BuildAtlas.Proofs.VisualStudio.DocumentOrder

How the groups of a project document decide its settings: by their order within each condition.

`Resolved` says what a document resolves to, without the tables that its reading fills. Lists are
what the elements of the groups give, one after the other, first of the groups for all
configurations and then of those for one. A single value is the last one that is given, field by
field (`Counts`). Only what stands under one condition is ordered, then, so groups may be moved past
others and taken apart (`Rearrangement`) with no change to any setting.
-/

namespace BuildAtlas.VisualStudio

open Xml (Element Node)

/-- In an element, the first child with a name has this text. -/
def FirstText (element : Element) (name text : String) : Prop :=
  ∃ before child after, element.elements = before ++ child :: after ∧
    (∀ other ∈ before, other.name ≠ name) ∧ child.name = name ∧ child.text? = some text

theorem childText?_eq_some_iff {element : Element} {name text : String} :
    element.childText? name = some text ↔ FirstText element name text := by
  rw [Element.childText?, Option.bind_eq_some_iff]
  constructor
  · rintro ⟨child, hfound, htext⟩
    obtain ⟨hname, before, after, helements, hbefore⟩ := List.find?_eq_some_iff_append.1 hfound
    exact ⟨before, child, after, helements, by simpa using hbefore, by simpa using hname, htext⟩
  · rintro ⟨before, child, after, helements, hbefore, hname, htext⟩
    refine ⟨child, List.find?_eq_some_iff_append.2 ⟨by simpa using hname, ?_⟩, htext⟩
    exact ⟨before, after, helements, by simpa using hbefore⟩

namespace ProjectDocument

/-! ### Fields of properties -/

/-- A single value that groups of properties may give. -/
structure PropertyField where
  /-- The label of the groups that give it. -/
  label : Option String
  /-- The name of the child element that holds it. -/
  tag : String
  /-- How its text is read. -/
  read : String → String

namespace PropertyField

/-- The word for what the project makes. -/
def kind : PropertyField := ⟨some "Configuration", "ConfigurationType", Text.trim⟩

/-- The output directory. -/
def directory : PropertyField := ⟨none, "OutDir", fun dir => Path.withSlashes (Text.trim dir)⟩

/-- The name of what the project makes. -/
def targetName : PropertyField := ⟨none, "TargetName", Text.trim⟩

/-- A group gives the field this value. -/
def Gives (field : PropertyField) (group : Element) (value : String) : Prop :=
  label? group = field.label ∧ ∃ text, FirstText group field.tag text ∧ value = field.read text

/-- The value that a group gives. -/
def value? (field : PropertyField) (group : Element) : Option String :=
  if label? group = field.label then (group.childText? field.tag).map field.read else none

theorem value?_eq_some_iff (field : PropertyField) (group : Element) (value : String) :
    field.value? group = some value ↔ field.Gives group value := by
  rw [value?, Option.ite_none_right_eq_some, Option.map_eq_some_iff]
  exact and_congr_right fun _ => exists_congr fun text =>
    and_congr childText?_eq_some_iff eq_comm

/-- The last value that is given for a configuration, or else for all. -/
def last? (field : PropertyField) (root : Element) (configuration : String) : Option String :=
  ((groupsFor root "PropertyGroup" configuration).filterMap field.value?).getLast?.or
    ((groupsFor root "PropertyGroup" "").filterMap field.value?).getLast?

/-- The value that counts in a configuration: the last one given for the configuration, or else the
last one given for all, or else the standard one. -/
inductive Counts (field : PropertyField) (root : Element) (configuration standard : String) :
    String → Prop
  | own {value : String}
      (h : LastGives field.Gives (groupsFor root "PropertyGroup" configuration) value) :
      Counts field root configuration standard value
  | shared {value : String}
      (hown : NoneGives field.Gives (groupsFor root "PropertyGroup" configuration))
      (h : LastGives field.Gives (groupsFor root "PropertyGroup" "") value) :
      Counts field root configuration standard value
  | standard (hown : NoneGives field.Gives (groupsFor root "PropertyGroup" configuration))
      (hshared : NoneGives field.Gives (groupsFor root "PropertyGroup" "")) :
      Counts field root configuration standard standard

theorem counts_last? (field : PropertyField) (root : Element) (configuration standard : String) :
    field.Counts root configuration standard ((field.last? root configuration).getD standard) := by
  rw [last?]
  cases hown : ((groupsFor root "PropertyGroup" configuration).filterMap field.value?).getLast? with
  | some value => exact .own ((getLast?_filterMap_eq_some_iff field.value?_eq_some_iff).1 hown)
  | none =>
      replace hown := (getLast?_filterMap_eq_none_iff field.value?_eq_some_iff).1 hown
      cases hall : ((groupsFor root "PropertyGroup" "").filterMap field.value?).getLast? with
      | some value =>
          exact .shared hown ((getLast?_filterMap_eq_some_iff field.value?_eq_some_iff).1 hall)
      | none =>
          exact .standard hown ((getLast?_filterMap_eq_none_iff field.value?_eq_some_iff).1 hall)

end PropertyField

/-! ### Lists of definitions -/

/-- The elements of the definitions for a configuration that say how to compile, in the order of the
document. -/
def compileElements (root : Element) (configuration : String) : List Element :=
  (groupsFor root "ItemDefinitionGroup" configuration).flatMap (·.elementsNamed "ClCompile")

/-- The elements that count in a configuration: those for all configurations, then those for this
one. -/
def compileElementsIn (root : Element) (configuration : String) : List Element :=
  compileElements root "" ++ if configuration = "" then [] else compileElements root configuration

/-- A list that elements about compiling contribute to. -/
structure ListField where
  /-- The name of the child element that holds entries. -/
  tag : String
  /-- How its text is read. -/
  read : String → List String

namespace ListField

/-- The macros that the compiler is given. -/
def defines : ListField := ⟨"PreprocessorDefinitions", listEntries⟩

/-- The include directories, with the references to macros in them. -/
def includeDirs (directory : String) : ListField :=
  ⟨"AdditionalIncludeDirectories", fun dirs =>
    (listEntries (Path.withSlashes dirs)).map (resolveInclude directory)⟩

/-- The other options of the compiler. -/
def options : ListField := ⟨"AdditionalOptions", optionWords⟩

/-- An element contributes these entries. -/
inductive Contributes (field : ListField) (element : Element) : List String → Prop
  | some {text : String} (h : FirstText element field.tag text) :
      Contributes field element (field.read text)
  | none (h : ∀ text, ¬ FirstText element field.tag text) : Contributes field element []

/-- The list holds what the elements contribute that count in a configuration, one after the
other. -/
def Lists (field : ListField) (root : Element) (configuration : String) (entries : List String) :
    Prop :=
  ∃ parts, List.Forall₂ field.Contributes (compileElementsIn root configuration) parts ∧
    entries = parts.flatten

/-- What an element contributes. -/
def contribution (field : ListField) (element : Element) : List String :=
  ((element.childText? field.tag).map field.read).getD []

theorem contributes_contribution (field : ListField) (element : Element) :
    field.Contributes element (field.contribution element) := by
  rw [contribution]
  cases htext : element.childText? field.tag with
  | some text => exact .some (childText?_eq_some_iff.1 htext)
  | none =>
      refine .none fun text h => ?_
      rw [childText?_eq_some_iff.2 h] at htext
      exact nomatch htext

theorem lists_flatMap (field : ListField) (root : Element) (configuration : String) :
    field.Lists root configuration
      ((compileElementsIn root configuration).flatMap field.contribution) := by
  refine ⟨(compileElementsIn root configuration).map field.contribution, ?_, rfl⟩
  rw [List.forall₂_map_right_iff, List.forall₂_same]
  exact fun element _ => field.contributes_contribution element

theorem Contributes.eq {field : ListField} {element : Element} {entries : List String}
    (h : field.Contributes element entries) : field.contribution element = entries := by
  rw [contribution]
  cases h with
  | some htext =>
      rw [childText?_eq_some_iff.2 htext]
      rfl
  | none hnone =>
      have htext : element.childText? field.tag = Option.none :=
        Option.eq_none_iff_forall_ne_some.2 fun text h => hnone text (childText?_eq_some_iff.1 h)
      rw [htext]
      rfl

/-- There is only one such list. -/
theorem Lists.eq {field : ListField} {root : Element} {configuration : String}
    {entries : List String} (h : field.Lists root configuration entries) :
    entries = (compileElementsIn root configuration).flatMap field.contribution := by
  obtain ⟨parts, hparts, rfl⟩ := h
  have hmap : List.Forall₂ Eq ((compileElementsIn root configuration).map field.contribution)
      parts :=
    List.forall₂_map_left_iff.2 (hparts.imp fun _ _ hcontributes => hcontributes.eq)
  rw [List.forall₂_eq_eq_eq] at hmap
  rw [← hmap]
  rfl

end ListField

theorem compileSettingsOf_eq (directory : String) (element : Element) :
    compileSettingsOf directory element =
      { defines := ListField.defines.contribution element
        includeDirs := (ListField.includeDirs directory).contribution element
        options := ListField.options.contribution element } := by
  simp only [compileSettingsOf, ListField.contribution, ListField.defines, ListField.includeDirs,
    ListField.options]

/-! ### What documents resolve to -/

/-- What a document with this element at its top resolves to in a configuration. -/
structure Resolved (project : SolutionProject) (solutionDir : String) (root : Element)
    (configuration : String) (document : ProjectDocument) : Prop where
  defines : ListField.defines.Lists root configuration (document.defines configuration)
  includeDirs : ∃ dirs,
    (ListField.includeDirs (Path.directory project.path)).Lists root configuration dirs ∧
      document.includeDirs configuration = dirs.map fun dir =>
        Path.normalize (((MacroTable.ofProject solutionDir project.name project.path).within
          configuration).expand dir)
  compileFlags : ListField.options.Lists root configuration (document.compileFlags configuration)
  kindWord : PropertyField.kind.Counts root configuration "" (document.kindWord configuration)
  outputDir : ∃ directory,
    PropertyField.directory.Counts root configuration (standardOutput configuration) directory ∧
      document.outputDir configuration =
        ((MacroTable.ofProject solutionDir project.name project.path).within configuration).expand
          directory
  targetName : PropertyField.targetName.Counts root configuration project.name
    (document.targetName configuration)

section Resolution

variable (project : SolutionProject) (solutionDir : String) (root : Element)
  (name configuration : String)

theorem compile_inForce : (ofRoot project solutionDir root).compile.inForce configuration =
    (compileElementsIn root configuration).map
      (compileSettingsOf (Path.directory project.path)) := by
  have hunder (name : String) : (ofRoot project solutionDir root).compile.under name =
      (compileElements root name).map (compileSettingsOf (Path.directory project.path)) := by
    rw [under_compile, compileElements, List.map_flatMap]
  rw [Conditioned.inForce, compileElementsIn, List.map_append, hunder, hunder,
    apply_ite (List.map _), List.map_nil]

theorem defines_ofRoot : (ofRoot project solutionDir root).defines configuration =
    (compileElementsIn root configuration).flatMap ListField.defines.contribution := by
  rw [ProjectDocument.defines, compile_inForce, List.flatMap_map]
  simp only [compileSettingsOf_eq]

theorem includeDirs_ofRoot : (ofRoot project solutionDir root).includeDirs configuration =
    ((compileElementsIn root configuration).flatMap
      (ListField.includeDirs (Path.directory project.path)).contribution).map fun dir =>
        Path.normalize (((MacroTable.ofProject solutionDir project.name project.path).within
          configuration).expand dir) := by
  rw [ProjectDocument.includeDirs, compile_inForce, List.flatMap_map]
  simp only [compileSettingsOf_eq, ofRoot]

theorem compileFlags_ofRoot : (ofRoot project solutionDir root).compileFlags configuration =
    (compileElementsIn root configuration).flatMap ListField.options.contribution := by
  rw [ProjectDocument.compileFlags, compile_inForce, List.flatMap_map]
  simp only [compileSettingsOf_eq]

theorem kinds_under : (ofRoot project solutionDir root).kinds.under name =
    (groupsFor root "PropertyGroup" name).filterMap PropertyField.kind.value? := by
  rw [under_kinds, List.filterMap_eq_flatMap_toList]
  rfl

/-- A field of the output is given by the groups without a label. -/
theorem output_under {field : PropertyField} {read? : OutputValues → Option String}
    (hlabel : field.label = none)
    (hread : ∀ group, read? (outputValuesOf group) = (group.childText? field.tag).map field.read) :
    ((ofRoot project solutionDir root).output.giving read?).under name =
      (groupsFor root "PropertyGroup" name).filterMap field.value? := by
  rw [Conditioned.under_giving, under_output, List.filterMap_flatMap,
    List.filterMap_eq_flatMap_toList]
  refine congrArg (List.flatMap · _) (funext fun group => ?_)
  rw [PropertyField.value?, hlabel, ← hread]
  by_cases h : label? group = none
  · rw [if_pos h, if_pos h, List.filterMap_eq_flatMap_toList, List.flatMap_singleton]
  · rw [if_neg h, if_neg h, List.filterMap_nil, Option.toList_none]

theorem kindWord_ofRoot : (ofRoot project solutionDir root).kindWord configuration =
    (PropertyField.kind.last? root configuration).getD "" := by
  rw [kindWord, Conditioned.last?, kinds_under, kinds_under]
  rfl

theorem outputDir_ofRoot : (ofRoot project solutionDir root).outputDir configuration =
    ((MacroTable.ofProject solutionDir project.name project.path).within configuration).expand
      ((PropertyField.directory.last? root configuration).getD (standardOutput configuration)) := by
  have hunder (name : String) :
      ((ofRoot project solutionDir root).output.giving (·.directory)).under name =
        (groupsFor root "PropertyGroup" name).filterMap PropertyField.directory.value? :=
    output_under project solutionDir root name rfl fun _ => rfl
  rw [outputDir, Conditioned.last?, hunder, hunder]
  rfl

theorem targetName_ofRoot : (ofRoot project solutionDir root).targetName configuration =
    (PropertyField.targetName.last? root configuration).getD project.name := by
  have hunder (name : String) :
      ((ofRoot project solutionDir root).output.giving (·.targetName)).under name =
        (groupsFor root "PropertyGroup" name).filterMap PropertyField.targetName.value? :=
    output_under project solutionDir root name rfl fun _ => rfl
  rw [targetName, Conditioned.last?, hunder, hunder]
  rfl

theorem resolved_ofRoot :
    Resolved project solutionDir root configuration (ofRoot project solutionDir root) where
  defines := by
    rw [defines_ofRoot]
    exact ListField.defines.lists_flatMap root configuration
  includeDirs := ⟨_, ListField.lists_flatMap _ root configuration,
    includeDirs_ofRoot project solutionDir root configuration⟩
  compileFlags := by
    rw [compileFlags_ofRoot]
    exact ListField.options.lists_flatMap root configuration
  kindWord := by
    rw [kindWord_ofRoot]
    exact PropertyField.kind.counts_last? root configuration ""
  outputDir := ⟨_, PropertyField.directory.counts_last? root configuration _,
    outputDir_ofRoot project solutionDir root configuration⟩
  targetName := by
    rw [targetName_ofRoot]
    exact PropertyField.targetName.counts_last? root configuration _

end Resolution

/-! ### Documents with the same settings -/

/-- Two documents resolve to the same settings in a configuration. -/
structure ResolvesAlike (configuration : String) (document document' : ProjectDocument) : Prop where
  defines : document.defines configuration = document'.defines configuration
  includeDirs : document.includeDirs configuration = document'.includeDirs configuration
  compileFlags : document.compileFlags configuration = document'.compileFlags configuration
  linkSettings : document.linkSettings configuration = document'.linkSettings configuration
  kindWord : document.kindWord configuration = document'.kindWord configuration
  kind : document.kind configuration = document'.kind configuration
  outputDir : document.outputDir configuration = document'.outputDir configuration
  targetName : document.targetName configuration = document'.targetName configuration
  binaryPath : document.binaryPath configuration = document'.binaryPath configuration

/-- The elements with a name and a condition, in order. -/
def selected (tag name : String) (elements : List Element) : List Element :=
  (elements.filter (·.name == tag)).filter (conditionOf · == name)

theorem groupsFor_eq (root : Element) (tag name : String) :
    groupsFor root tag name = selected tag name root.elements := rfl

theorem selected_append (tag name : String) (front back : List Element) :
    selected tag name (front ++ back) = selected tag name front ++ selected tag name back := by
  rw [selected, List.filter_append, List.filter_append]
  rfl

theorem selected_cons_of_mem {tag name : String} {group : Element} (hname : group.name = tag)
    (hcondition : conditionOf group = name) (rest : List Element) :
    selected tag name (group :: rest) = group :: selected tag name rest := by
  simp [selected, hname, hcondition]

theorem selected_cons_of_not_mem {tag name : String} {group : Element}
    (h : ¬ (group.name = tag ∧ conditionOf group = name)) (rest : List Element) :
    selected tag name (group :: rest) = selected tag name rest := by
  rw [not_and] at h
  by_cases hname : group.name = tag
  · simp [selected, hname, h hname]
  · simp [selected, hname]

/-- Two lists of elements give the same under a condition. -/
structure GiveAlike (name : String) (elements elements' : List Element) : Prop where
  definitions : ∀ tag,
    (selected "ItemDefinitionGroup" name elements).flatMap (·.elementsNamed tag) =
      (selected "ItemDefinitionGroup" name elements').flatMap (·.elementsNamed tag)
  values : ∀ field : PropertyField,
    (selected "PropertyGroup" name elements).filterMap field.value? =
      (selected "PropertyGroup" name elements').filterMap field.value?

/-- A document resolves its settings from what is given for all configurations and for one. -/
theorem resolvesAlike_of_giveAlike {root root' : Element} {configuration : String}
    (hall : GiveAlike "" root.elements root'.elements)
    (hone : GiveAlike configuration root.elements root'.elements)
    (project : SolutionProject) (solutionDir : String) :
    ResolvesAlike configuration (ofRoot project solutionDir root)
      (ofRoot project solutionDir root') := by
  have helements :
      compileElementsIn root configuration = compileElementsIn root' configuration := by
    rw [compileElementsIn, compileElementsIn, compileElements, compileElements, compileElements,
      compileElements, groupsFor_eq, groupsFor_eq, groupsFor_eq, groupsFor_eq, hall.definitions,
      hone.definitions]
  have hlink (name : String) (h : GiveAlike name root.elements root'.elements) :
      (ofRoot project solutionDir root).link.under name =
        (ofRoot project solutionDir root').link.under name := by
    rw [under_link, under_link, ← List.map_flatMap, ← List.map_flatMap, groupsFor_eq, groupsFor_eq,
      h.definitions]
  have hlast (field : PropertyField) :
      field.last? root configuration = field.last? root' configuration := by
    rw [PropertyField.last?, PropertyField.last?, groupsFor_eq, groupsFor_eq, groupsFor_eq,
      groupsFor_eq, hall.values, hone.values]
  have hword : (ofRoot project solutionDir root).kindWord configuration =
      (ofRoot project solutionDir root').kindWord configuration := by
    rw [kindWord_ofRoot, kindWord_ofRoot, hlast]
  have hkind : (ofRoot project solutionDir root).kind configuration =
      (ofRoot project solutionDir root').kind configuration := by
    rw [ProjectDocument.kind, ProjectDocument.kind, hword]
  have hdirectory : (ofRoot project solutionDir root).outputDir configuration =
      (ofRoot project solutionDir root').outputDir configuration := by
    rw [outputDir_ofRoot, outputDir_ofRoot, hlast]
  have htarget : (ofRoot project solutionDir root).targetName configuration =
      (ofRoot project solutionDir root').targetName configuration := by
    rw [targetName_ofRoot, targetName_ofRoot, hlast]
  exact {
    defines := by rw [defines_ofRoot, defines_ofRoot, helements]
    includeDirs := by rw [includeDirs_ofRoot, includeDirs_ofRoot, helements]
    compileFlags := by rw [compileFlags_ofRoot, compileFlags_ofRoot, helements]
    linkSettings := by
      rw [ProjectDocument.linkSettings, ProjectDocument.linkSettings, hlink _ hone, hlink _ hall]
    kindWord := hword
    kind := hkind
    outputDir := hdirectory
    targetName := htarget
    binaryPath := by
      rw [ProjectDocument.binaryPath, ProjectDocument.binaryPath, hdirectory, htarget, hkind] }

/-! ### Documents in another order -/

/-- The group with other content. -/
def withChildren (group : Element) (children : List Node) : Element :=
  { group with children }

/-- One change to the elements at the top of a document that does not count: two neighbours change
places, unless they are groups of one name for one configuration, or a group is taken apart. -/
inductive Rearrangement : List Element → List Element → Prop
  | swap {before after : List Element} {group other : Element}
      (h : group.name = other.name → conditionOf group ≠ conditionOf other) :
      Rearrangement (before ++ group :: other :: after) (before ++ other :: group :: after)
  | splitDefinitions {before after : List Element} {group : Element} {parts : List (List Node)}
      (hname : group.name = "ItemDefinitionGroup") (hparts : parts.flatten = group.children) :
      Rearrangement (before ++ group :: after) (before ++ parts.map (withChildren group) ++ after)
  /-- No two children of the group have the same name. -/
  | splitProperties {before after : List Element} {group : Element} {parts : List (List Node)}
      (hname : group.name = "PropertyGroup") (hparts : parts.flatten = group.children)
      (hnodup : (group.elements.map (·.name)).Nodup) :
      Rearrangement (before ++ group :: after) (before ++ parts.map (withChildren group) ++ after)

/-- The parts of a group have its name and its condition. -/
theorem selected_parts (tag name : String) (group : Element) (parts : List (List Node)) :
    selected tag name (parts.map (withChildren group)) =
      if group.name = tag ∧ conditionOf group = name then parts.map (withChildren group)
      else [] := by
  induction parts with
  | nil => simp [selected]
  | cons part rest ih =>
      have hpart : (withChildren group part).name = tag ∧
          conditionOf (withChildren group part) = name ↔
            group.name = tag ∧ conditionOf group = name := Iff.rfl
      by_cases h : group.name = tag ∧ conditionOf group = name
      · rw [List.map_cons, selected_cons_of_mem (hpart.2 h).1 (hpart.2 h).2, ih, if_pos h, if_pos h]
      · rw [List.map_cons, selected_cons_of_not_mem (mt hpart.1 h), ih, if_neg h, if_neg h]

/-- A list that a group gives from its content, part by part, is given by the parts. -/
theorem flatMap_selected_split {α : Type} {give : Element → List α} {before after : List Element}
    {group : Element} {parts : List (List Node)} {tag name : String}
    (hgive : group.name = tag → (parts.map (withChildren group)).flatMap give = give group) :
    (selected tag name (before ++ group :: after)).flatMap give =
      (selected tag name (before ++ parts.map (withChildren group) ++ after)).flatMap give := by
  rw [List.append_assoc, selected_append, selected_append, selected_append, selected_parts]
  by_cases h : group.name = tag ∧ conditionOf group = name
  · rw [selected_cons_of_mem h.1 h.2, if_pos h, List.flatMap_append, List.flatMap_cons,
      List.flatMap_append, List.flatMap_append, hgive h.1]
  · rw [selected_cons_of_not_mem h, if_neg h, List.nil_append]

theorem elements_withChildren (group : Element) (children : List Node) :
    (withChildren group children).elements = children.filterMap Element.ofNode? := rfl

theorem elementsNamed_parts (group : Element) (parts : List (List Node)) (tag : String) :
    (parts.map (withChildren group)).flatMap (·.elementsNamed tag) =
      (withChildren group parts.flatten).elementsNamed tag := by
  induction parts with
  | nil => rfl
  | cons part rest ih =>
      rw [List.map_cons, List.flatMap_cons, ih]
      simp only [Element.elementsNamed, elements_withChildren, List.flatten_cons,
        List.filterMap_append, List.filter_append]

/-- Where no two children have one name, a field stands in one part only. -/
theorem value?_parts {field : PropertyField} {group : Element} (hlabel : label? group = field.label)
    {parts : List (List Node)}
    (hnodup : ((withChildren group parts.flatten).elements.map (·.name)).Nodup) :
    (parts.map (withChildren group)).filterMap field.value? =
      (field.value? (withChildren group parts.flatten)).toList := by
  have hvalue (children : List Node) : field.value? (withChildren group children) =
      ((withChildren group children).childText? field.tag).map field.read := if_pos hlabel
  induction parts with
  | nil => rw [hvalue]; rfl
  | cons part rest ih =>
      rw [List.flatten_cons, elements_withChildren, List.filterMap_append, List.map_append,
        List.nodup_append] at hnodup
      obtain ⟨-, hrest, hapart⟩ := hnodup
      rw [List.map_cons, List.filterMap_cons, ih hrest, hvalue, hvalue, hvalue, List.flatten_cons]
      simp only [Element.childText?, elements_withChildren, List.filterMap_append,
        List.find?_append]
      cases hfound : (part.filterMap Element.ofNode?).find? (·.name == field.tag) with
      | none => rfl
      | some child =>
          -- the child has the name of the field, so no child in the other parts has it
          have hnone :
              (rest.flatten.filterMap Element.ofNode?).find? (·.name == field.tag) = none := by
            rw [List.find?_eq_none]
            intro other hother
            have hname : child.name = field.tag := by simpa using List.find?_some hfound
            have hne := hapart _ (List.mem_map_of_mem (List.mem_of_find?_eq_some hfound)) _
              (List.mem_map_of_mem hother)
            simpa [hname] using hne.symm
          rw [hnone, Option.or_none]
          cases htext : child.text? with
          | none => simp [htext]
          | some text => simp [htext]

/-- A change that does not count leaves what is given under each condition. -/
theorem Rearrangement.giveAlike {elements elements' : List Element}
    (h : Rearrangement elements elements') (name : String) : GiveAlike name elements elements' := by
  cases h with
  | @swap before after group other h =>
      have hneighbours (tag : String) : selected tag name (group :: other :: after) =
          selected tag name (other :: group :: after) := by
        by_cases hgroup : group.name = tag ∧ conditionOf group = name
        · have hother : ¬ (other.name = tag ∧ conditionOf other = name) := by
            rintro ⟨hname, hcondition⟩
            exact h (hgroup.1.trans hname.symm) (hgroup.2.trans hcondition.symm)
          rw [selected_cons_of_mem hgroup.1 hgroup.2, selected_cons_of_not_mem hother,
            selected_cons_of_not_mem hother, selected_cons_of_mem hgroup.1 hgroup.2]
        · by_cases hother : other.name = tag ∧ conditionOf other = name
          · rw [selected_cons_of_not_mem hgroup, selected_cons_of_mem hother.1 hother.2,
              selected_cons_of_mem hother.1 hother.2, selected_cons_of_not_mem hgroup]
          · rw [selected_cons_of_not_mem hgroup, selected_cons_of_not_mem hother,
              selected_cons_of_not_mem hother, selected_cons_of_not_mem hgroup]
      have hselected (tag : String) : selected tag name (before ++ group :: other :: after) =
          selected tag name (before ++ other :: group :: after) := by
        rw [selected_append, selected_append, hneighbours]
      exact ⟨fun tag => by rw [hselected], fun field => by rw [hselected]⟩
  | splitDefinitions hname hparts =>
      refine ⟨fun tag => flatMap_selected_split fun _ => ?_, fun field => ?_⟩
      · rw [elementsNamed_parts, hparts]
        rfl
      · rw [List.filterMap_eq_flatMap_toList, List.filterMap_eq_flatMap_toList]
        exact flatMap_selected_split fun h => absurd (hname.symm.trans h) (by decide)
  | @splitProperties before after group parts hname hparts hnodup =>
      refine ⟨fun tag => ?_, fun field => ?_⟩
      · exact flatMap_selected_split fun h => absurd (hname.symm.trans h) (by decide)
      · rw [List.filterMap_eq_flatMap_toList, List.filterMap_eq_flatMap_toList]
        refine flatMap_selected_split fun _ => ?_
        have hwhole : withChildren group parts.flatten = group := by rw [hparts]; rfl
        rw [← List.filterMap_eq_flatMap_toList]
        by_cases hlabel : label? group = field.label
        · rw [value?_parts hlabel (hwhole.symm ▸ hnodup), hwhole]
        · -- the parts have the label of the group, so none of them gives the field
          have hnone : field.value? group = none := if_neg hlabel
          rw [hnone, List.filterMap_eq_nil_iff.2]
          · rfl
          · intro part hpart
            obtain ⟨children, -, rfl⟩ := List.mem_map.1 hpart
            exact if_neg hlabel

/-- So do any number of such changes, forth and back. -/
theorem giveAlike_of_eqvGen {elements elements' : List Element}
    (h : Relation.EqvGen Rearrangement elements elements') (name : String) :
    GiveAlike name elements elements' := by
  induction h with
  | rel elements elements' h => exact h.giveAlike name
  | refl elements => exact ⟨fun _ => rfl, fun _ => rfl⟩
  | symm elements elements' _ ih =>
      exact ⟨fun tag => (ih.definitions tag).symm, fun field => (ih.values field).symm⟩
  | trans first second third _ _ ih ih' =>
      exact ⟨fun tag => (ih.definitions tag).trans (ih'.definitions tag),
        fun field => (ih.values field).trans (ih'.values field)⟩

/-- A text is a project document with this element at its top. -/
structure Describes (text : String) (root : Element) : Prop where
  parse_eq : Xml.parse (Text.withoutMarks text) = .ok root
  name_eq : root.name = "Project"

theorem parse_eq_ok_iff {project : SolutionProject} {solutionDir text : String}
    {document : ProjectDocument} : parse project solutionDir text = .ok document ↔
      ∃ root, Describes text root ∧ document = ofRoot project solutionDir root := by
  constructor
  · intro h
    obtain ⟨root, hroot, hname, hdocument⟩ := exists_root_of_parse h
    exact ⟨root, ⟨hroot, hname⟩, hdocument⟩
  · rintro ⟨root, ⟨hroot, hname⟩, rfl⟩
    exact parse_of_root project solutionDir hroot hname

/-- A text with these characters is a document when they are read as one. -/
theorem describes_of_read {text : String} {cs : List Char} {root : Element}
    (htext : text = .ofList cs) (hhead : cs.head? ≠ some '\uFEFF')
    (hread : (Xml.read cs).toOption = some root) (hname : root.name = "Project") :
    Describes text root :=
  ⟨Xml.parse_of_read htext hhead hread, hname⟩

/-- The settings of a document resolve by its order within each condition, so a document whose
groups are moved past groups with other conditions, or are taken apart, resolves to the same
settings in every configuration. -/
theorem resolved_by_document_order {project : SolutionProject} {solutionDir text : String}
    {document : ProjectDocument} (h : parse project solutionDir text = .ok document) :
    ∃ root, Describes text root ∧
      (∀ configuration, Resolved project solutionDir root configuration document) ∧
      ∀ text' root', Describes text' root' →
        Relation.EqvGen Rearrangement root.elements root'.elements →
          ∃ document', parse project solutionDir text' = .ok document' ∧
            ∀ configuration, ResolvesAlike configuration document document' := by
  obtain ⟨root, hroot, rfl⟩ := parse_eq_ok_iff.1 h
  refine ⟨root, hroot, resolved_ofRoot project solutionDir root, ?_⟩
  intro text' root' hroot' hmoved
  refine ⟨_, parse_eq_ok_iff.2 ⟨root', hroot', rfl⟩, fun configuration => ?_⟩
  exact resolvesAlike_of_giveAlike (giveAlike_of_eqvGen hmoved "")
    (giveAlike_of_eqvGen hmoved configuration) project solutionDir

/-- A document with a group for one configuration that gives two fields, and a group for all. -/
def groupedText : String :=
  "<Project><PropertyGroup Condition=\"==k\"><OutDir>o</OutDir><TargetName>x</TargetName>" ++
    "</PropertyGroup><PropertyGroup/></Project>"

/-- The group for all has been moved to the front, and the other one has been taken apart. -/
def regroupedText : String :=
  "<Project><PropertyGroup/><PropertyGroup Condition=\"==k\"><OutDir>o</OutDir></PropertyGroup>" ++
    "<PropertyGroup Condition=\"==k\"><TargetName>x</TargetName></PropertyGroup></Project>"

theorem resolved_by_document_order_grouped :
    ∃ document document', parse sampleProject "" groupedText = .ok document ∧
      parse sampleProject "" regroupedText = .ok document' ∧ document.targetName "k" = "x" ∧
        ∀ configuration, ResolvesAlike configuration document document' := by
  let directory : Node := .element "OutDir" [] [.text "o"]
  let target : Node := .element "TargetName" [] [.text "x"]
  let one : Element := ⟨"PropertyGroup", [("Condition", "==k")], [directory, target]⟩
  let all : Element := ⟨"PropertyGroup", [], []⟩
  let parts : List (List Node) := [[directory], [target]]
  let root : Element := ⟨"Project", [], [one.toNode, all.toNode]⟩
  let root' : Element :=
    ⟨"Project", [], all.toNode :: parts.map fun part => (withChildren one part).toNode⟩
  have hroot : Describes groupedText root :=
    describes_of_read String.ofList_append.symm (by decide) (by decide +kernel) rfl
  have hroot' : Describes regroupedText root' :=
    describes_of_read String.ofList_append.symm (by decide) (by decide +kernel) rfl
  have hmoved : Relation.EqvGen Rearrangement root.elements root'.elements := by
    refine .trans _ [all, one] _ (.rel _ _ ?_) (.rel _ _ ?_)
    · exact @Rearrangement.swap [] [] one all fun _ => by decide +kernel
    · exact @Rearrangement.splitProperties [all] [] one parts rfl rfl (by decide)
  have hdocument : parse sampleProject "" groupedText = .ok (ofRoot sampleProject "" root) :=
    parse_eq_ok_iff.2 ⟨root, hroot, rfl⟩
  obtain ⟨found, hfound, -, hsame⟩ := resolved_by_document_order hdocument
  obtain rfl : root = found := Except.ok.inj (hroot.parse_eq.symm.trans hfound.parse_eq)
  obtain ⟨document', hdocument', halike⟩ := hsame _ _ hroot' hmoved
  exact ⟨_, document', hdocument, hdocument', by decide +kernel, halike⟩

end ProjectDocument

end BuildAtlas.VisualStudio
