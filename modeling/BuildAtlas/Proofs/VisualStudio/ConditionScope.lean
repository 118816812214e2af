import BuildAtlas.Proofs.VisualStudio.DocumentOrder

/-!
# BuildAtlas.Proofs.VisualStudio.ConditionScope

Where the settings of a group with a condition count.

A condition that compares something with a value is for the configuration of this name
(`Compares`), and the group counts nowhere else. Any other condition, one of a different form or one
that compares with the empty text, is no condition: the document is the same as if the group had
none (`ofRoot_withoutCondition`).
-/

namespace BuildAtlas.VisualStudio

open Xml (Element Node)

/-! ### Conditions -/

/-- A condition compares something with a value: this stands behind the first `==`, without the
blanks and then without the quotes around it. -/
def Compares (condition value : String) : Prop :=
  ∃ left right, condition.toList = left ++ "==".toList ++ right ∧
    (∀ left' right', condition.toList = left' ++ "==".toList ++ right' →
      left.length ≤ left'.length) ∧
    value = Text.trimMatches (fun c => c == '\'' || c == '"') (Text.trim (.ofList right))

theorem compares_iff {condition value : String} : Compares condition value ↔
    ∃ left right, Text.splitOnce? "==" condition = some (left, right) ∧
      value = Text.trimMatches (fun c => c == '\'' || c == '"') (Text.trim right) := by
  simp only [Text.splitOnce?, Option.map_eq_some_iff, Prod.exists, Prod.mk.injEq,
    Text.breakOn?_eq_some_iff]
  constructor
  · rintro ⟨left, right, hplace, hfirst, rfl⟩
    exact ⟨.ofList left, .ofList right, ⟨left, right, ⟨hplace, hfirst⟩, rfl, rfl⟩, rfl⟩
  · rintro ⟨_, _, ⟨left, right, ⟨hplace, hfirst⟩, rfl, rfl⟩, rfl⟩
    exact ⟨left, right, hplace, hfirst, rfl⟩

namespace ProjectDocument

/-- The condition of a group says nothing about configurations: there is none, or it compares with
no value, or with the empty text. -/
def CountsForAll (group : Element) : Prop :=
  ∀ condition, group.attribute? "Condition" = some condition →
    ∀ value, Compares condition value → value = ""

theorem conditionOf_of_compares {group : Element} {condition value : String}
    (hcondition : group.attribute? "Condition" = some condition) (h : Compares condition value) :
    conditionOf group = value := by
  obtain ⟨left, right, hsplit, rfl⟩ := compares_iff.1 h
  rw [conditionOf, hcondition, Option.bind_some, hsplit]

theorem conditionOf_eq_empty_iff {group : Element} :
    conditionOf group = "" ↔ CountsForAll group := by
  constructor
  · intro h condition hcondition value hvalue
    rw [← conditionOf_of_compares hcondition hvalue, h]
  · intro h
    cases hcondition : group.attribute? "Condition" with
    | none => rw [conditionOf, hcondition, Option.bind_none]
    | some condition =>
        cases hsplit : Text.splitOnce? "==" condition with
        | none => rw [conditionOf, hcondition, Option.bind_some, hsplit]
        | some parts =>
            have hvalue := compares_iff.2 ⟨parts.1, parts.2, hsplit, rfl⟩
            rw [conditionOf_of_compares hcondition hvalue]
            exact h condition hcondition _ hvalue

/-! ### A group that is left out -/

/-- A group counts nowhere but under its own condition. -/
theorem giveAlike_without {before after : List Element} {group : Element} {name : String}
    (h : conditionOf group ≠ name) :
    GiveAlike name (before ++ group :: after) (before ++ after) := by
  have hselected (tag : String) : selected tag name (before ++ group :: after) =
      selected tag name (before ++ after) := by
    rw [selected_append, selected_append, selected_cons_of_not_mem fun hgroup => h hgroup.2]
  exact ⟨fun tag => by rw [hselected], fun field => by rw [hselected]⟩

/-! ### A group without its condition -/

/-- The group without its condition. -/
def withoutCondition (group : Element) : Element :=
  { group with attributes := group.attributes.filter (·.1 != "Condition") }

theorem lookup_filter_ne {attributes : List (String × String)} {name dropped : String}
    (hname : name ≠ dropped) :
    (attributes.filter (·.1 != dropped)).lookup name = attributes.lookup name := by
  induction attributes with
  | nil => rfl
  | cons attr rest ih =>
      obtain ⟨key, value⟩ := attr
      by_cases hkey : key = dropped
      · have hne : (name == key) = false := by simpa [hkey] using hname
        rw [List.filter_cons_of_neg (by simpa using hkey), ih, List.lookup_cons, hne]
      · rw [List.filter_cons_of_pos (by simpa using hkey), List.lookup_cons, List.lookup_cons, ih]

theorem attribute?_withoutCondition (group : Element) :
    (withoutCondition group).attribute? "Condition" = none := by
  rw [Element.attribute?, withoutCondition, List.lookup_eq_none_iff]
  intro attr hattr
  rw [List.mem_filter] at hattr
  simpa using Ne.symm (by simpa using hattr.2)

theorem label?_withoutCondition (group : Element) :
    label? (withoutCondition group) = label? group :=
  lookup_filter_ne (by decide)

theorem conditionOf_withoutCondition (group : Element) :
    conditionOf (withoutCondition group) = "" := by
  rw [conditionOf_eq_empty_iff]
  intro condition hcondition
  rw [attribute?_withoutCondition] at hcondition
  exact nomatch hcondition

/-- What is read from the elements of a name does not change when one element at the top is replaced
by another one of the same name that makes no difference for the reading. -/
theorem reading_replace {α : Type} {root root' group group' : Element} {before after : List Element}
    (helements : root.elements = before ++ group :: after)
    (helements' : root'.elements = before ++ group' :: after) (hname : group'.name = group.name)
    (reading : List Element → α)
    (hreading : ∀ front back, reading (front ++ group' :: back) = reading (front ++ group :: back))
    (tag : String) : reading (root'.elementsNamed tag) = reading (root.elementsNamed tag) := by
  rw [Element.elementsNamed, Element.elementsNamed, helements, helements', List.filter_append,
    List.filter_append]
  by_cases h : group.name = tag
  · rw [List.filter_cons_of_pos (by simpa [hname] using h),
      List.filter_cons_of_pos (by simpa using h), hreading]
  · rw [List.filter_cons_of_neg (by simpa [hname] using h),
      List.filter_cons_of_neg (by simpa using h)]

/-- A condition that names no configuration is none. -/
theorem ofRoot_withoutCondition {root root' group : Element} {before after : List Element}
    (helements : root.elements = before ++ group :: after)
    (helements' : root'.elements = before ++ withoutCondition group :: after)
    (h : CountsForAll group) (project : SolutionProject) (solutionDir : String) :
    ofRoot project solutionDir root' = ofRoot project solutionDir root := by
  have hcondition : conditionOf (withoutCondition group) = conditionOf group := by
    rw [conditionOf_withoutCondition, conditionOf_eq_empty_iff.2 h]
  have hlabel := label?_withoutCondition group
  have hnamed (tag : String) :
      (withoutCondition group).elementsNamed tag = group.elementsNamed tag := rfl
  have htext (tag : String) : (withoutCondition group).childText? tag = group.childText? tag := rfl
  have hchildren : (withoutCondition group).elements = group.elements := rfl
  rw [ofRoot, ofRoot, ProjectDocument.mk.injEq]
  have hkeep {α : Type} (reading : List Element → α) (tag : String)
      (hreading : ∀ front back, reading (front ++ withoutCondition group :: back) =
        reading (front ++ group :: back)) :
      reading (root'.elementsNamed tag) = reading (root.elementsNamed tag) :=
    reading_replace helements helements' rfl reading hreading tag
  refine ⟨rfl, rfl, ?_, ?_, ?_, ?_, ?_, ?_, ?_⟩
  · refine hkeep (List.flatMap _) _ fun front back => ?_
    simp [itemsOf, listsConfigurations, hlabel, hchildren]
  · refine hkeep (List.flatMap _) _ fun front back => ?_
    simp [configurationsOf, listsConfigurations, hlabel, hchildren]
  · refine hkeep (List.flatMap _) _ fun front back => ?_
    simp [definitions, hcondition, hnamed]
  · refine hkeep (List.flatMap _) _ fun front back => ?_
    simp [definitions, hcondition, hnamed]
  · refine hkeep (fun groups => (groups.filter _).filterMap _) _ fun front back => ?_
    by_cases hgroup : label? group = some "Configuration"
    · simp [hgroup, hlabel, hcondition, htext, List.filterMap_cons]
    · simp [hgroup, hlabel]
  · refine hkeep (fun groups => (groups.filter _).map _) _ fun front back => ?_
    by_cases hgroup : label? group = none
    · simp [hgroup, hlabel, hcondition, outputValuesOf, htext]
    · simp [hgroup, hlabel]
  · refine hkeep (fun groups => groups.any _) _ fun front back => ?_
    simp [hlabel]

/-- A group whose condition compares with a value counts in the configuration of this name and
nowhere else: without it, everything resolves the same in all others. A group with any other
condition counts in all configurations, as the document is the same as without the condition. -/
theorem condition_counts_for_value_or_for_all (project : SolutionProject) (solutionDir : String)
    {text text' condition : String} {root root' group : Element} {before after : List Element}
    (hroot : Describes text root) (hroot' : Describes text' root')
    (helements : root.elements = before ++ group :: after)
    (helements' : root'.elements = before ++ after)
    (hcondition : group.attribute? "Condition" = some condition) :
    ∃ document document', parse project solutionDir text = .ok document ∧
      parse project solutionDir text' = .ok document' ∧
      (∀ value, value ≠ "" → Compares condition value →
        ∀ configuration, configuration ≠ value → ResolvesAlike configuration document document') ∧
      ((∀ value, Compares condition value → value = "") → ∀ text'' root'', Describes text'' root'' →
        root''.elements = before ++ withoutCondition group :: after →
          parse project solutionDir text'' = .ok document) := by
  refine ⟨_, _, parse_eq_ok_iff.2 ⟨root, hroot, rfl⟩,
    parse_eq_ok_iff.2 ⟨root', hroot', rfl⟩, ?_, ?_⟩
  · intro value hvalue hcompares configuration hother
    have hname := conditionOf_of_compares hcondition hcompares
    have halike {name : String} (hne : name ≠ value) :
        GiveAlike name root.elements root'.elements := by
      rw [helements, helements']
      exact giveAlike_without fun h => hne (h.symm.trans hname)
    exact resolvesAlike_of_giveAlike (halike hvalue.symm) (halike hother) project solutionDir
  · intro hnone text'' root'' hroot'' helements''
    have hall : CountsForAll group := by
      intro other hother value hvalue
      rw [hcondition, Option.some.injEq] at hother
      exact hnone value (hother ▸ hvalue)
    exact parse_eq_ok_iff.2 ⟨root'', hroot'',
      (ofRoot_withoutCondition helements helements'' hall project solutionDir).symm⟩

theorem describes_empty : Describes "<Project/>" ⟨"Project", [], []⟩ :=
  describes_of_read rfl (by decide) (by decide +kernel) rfl

/-- A document that names its target unless two texts are the same. -/
def unequalText : String :=
  "<Project><PropertyGroup Condition=\"a!=b\"><TargetName>x</TargetName></PropertyGroup></Project>"

theorem not_compares_unequal (value : String) : ¬ Compares "a!=b" value := by
  intro h
  obtain ⟨left, right, hsplit, -⟩ := compares_iff.1 h
  have hnone : Text.splitOnce? "==" "a!=b" = none := by decide +kernel
  rw [hnone] at hsplit
  exact nomatch hsplit

/-- A document that names its target. -/
def plainText : String :=
  "<Project><PropertyGroup><TargetName>x</TargetName></PropertyGroup></Project>"

/-- The name that a document gives its target for `k` counts there, and not for `m`. The name given
under a condition that compares with no value counts as one given under none. -/
theorem condition_counts_for_value_or_for_all_samples :
    (∃ document document', parse sampleProject "" sampleText = .ok document ∧
      parse sampleProject "" "<Project/>" = .ok document' ∧
      document.targetName "k" ≠ document'.targetName "k" ∧
      ResolvesAlike "m" document document') ∧
    ∃ document, parse sampleProject "" unequalText = .ok document ∧
      parse sampleProject "" plainText = .ok document := by
  let content : List Node := [.element "TargetName" [] [.text "x"]]
  let root (attributes : List (String × String)) : Element :=
    ⟨"Project", [], [.element "PropertyGroup" attributes content]⟩
  let group (attributes : List (String × String)) : Element :=
    ⟨"PropertyGroup", attributes, content⟩
  have hone : Describes sampleText (root [("Condition", "==k")]) :=
    describes_of_read rfl (by decide) (by decide +kernel) rfl
  have hunequal : Describes unequalText (root [("Condition", "a!=b")]) :=
    describes_of_read rfl (by decide) (by decide +kernel) rfl
  have hplain : Describes plainText (root []) :=
    describes_of_read rfl (by decide) (by decide +kernel) rfl
  have helements (attributes : List (String × String)) :
      (root attributes).elements = [] ++ group attributes :: [] := rfl
  have hempty : Element.elements ⟨"Project", [], []⟩ = [] ++ [] := rfl
  constructor
  · have hvalue : Compares "==k" "k" :=
      compares_iff.2 ⟨"", "k", by decide +kernel, by decide +kernel⟩
    obtain ⟨document, document', hdocument, hdocument', hsame, -⟩ :=
      condition_counts_for_value_or_for_all sampleProject "" hone describes_empty (helements _)
        hempty rfl
    refine ⟨document, document', hdocument, hdocument', ?_,
      hsame "k" (by decide) hvalue "m" (by decide)⟩
    obtain rfl := Except.ok.inj (hdocument.symm.trans (parse_eq_ok_iff.2 ⟨_, hone, rfl⟩))
    obtain rfl := Except.ok.inj
      (hdocument'.symm.trans (parse_eq_ok_iff.2 ⟨_, describes_empty, rfl⟩))
    decide +kernel
  · have hnone : ∀ value, Compares "a!=b" value → value = "" :=
      fun value h => absurd h (not_compares_unequal value)
    obtain ⟨document, -, hdocument, -, -, hsame⟩ :=
      condition_counts_for_value_or_for_all sampleProject "" hunequal describes_empty (helements _)
        hempty rfl
    exact ⟨document, hdocument, hsame hnone plainText _ hplain (helements [])⟩

/-- The condition compares with no value, and still the name counts for `c`. -/
theorem targetName_ne_of_unequalText :
    ∃ root group, Describes unequalText root ∧ Describes "<Project/>" ⟨"Project", [], []⟩ ∧
      root.elements = [group] ∧ group.attribute? "Condition" = some "a!=b" ∧
      (∀ value, ¬ Compares "a!=b" value) ∧
      (ofRoot sampleProject "" root).targetName "c" ≠
        (ofRoot sampleProject "" ⟨"Project", [], []⟩).targetName "c" := by
  let group : Element :=
    ⟨"PropertyGroup", [("Condition", "a!=b")], [.element "TargetName" [] [.text "x"]]⟩
  have hroot : Describes unequalText ⟨"Project", [], [group.toNode]⟩ :=
    describes_of_read rfl (by decide) (by decide +kernel) rfl
  exact ⟨_, group, hroot, describes_empty, rfl, rfl, not_compares_unequal, by decide +kernel⟩

end ProjectDocument

end BuildAtlas.VisualStudio
