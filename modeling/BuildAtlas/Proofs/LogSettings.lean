import BuildAtlas.LogSettings
import BuildAtlas.Proofs.Path.FileName

/-!
# BuildAtlas.Proofs.LogSettings

Logs of several processes are written to files of their own.

A tag stands in the file name between a stem and an ending that do not depend on it
(`fileName?_tagged`), so different tags give different file names, and processes have different tags
(`processTag_inj`). The directory stays the same, and so does an extension that is not empty
(`tagged_keeps_processes_apart`).
-/

namespace BuildAtlas.LogSettings

open BuildAtlas.Path (HasExtension IsName extension? fileName? parent? stemAndExtension
  withFileName)

/-! ### Names with a tag -/

/-- What follows a tag in a file name: the extension with its dot, if it is not empty. -/
def ending (name : String) : String :=
  match (stemAndExtension name).2 with
  | none | some "" => ""
  | some extension => "." ++ extension

/-- A file name with a tag in it. -/
def taggedName (name tag : String) : String :=
  (stemAndExtension name).1 ++ "." ++ tag ++ ending name

section Names

variable {name tag extension : String}

/-- The stem and the extension are parts of the name. -/
theorem eq_or_eq_append_of_stemAndExtension (name : String) :
    ((stemAndExtension name).1 = name ∧ (stemAndExtension name).2 = none) ∨
      ∃ extension, (stemAndExtension name).2 = some extension ∧
        name = (stemAndExtension name).1 ++ "." ++ extension := by
  rw [stemAndExtension]
  split
  · exact .inl ⟨rfl, rfl⟩
  · exact .inl ⟨rfl, rfl⟩
  · rename_i stem extension hne hcut
    refine .inr ⟨_, rfl, ?_⟩
    rw [← String.toList_inj, (Path.breakOnLast?_eq_some_iff.1 hcut).1]
    simp

theorem ending_of_eq_some (h : (stemAndExtension name).2 = some extension)
    (hne : extension ≠ "") : ending name = "." ++ extension := by
  rw [ending, h]
  split
  · next hnone => exact nomatch hnone
  · next hsome => exact absurd (Option.some.inj hsome) hne
  · next hsome => rw [Option.some.inj hsome]

theorem slash_not_mem_taggedName (hname : '/' ∉ name.toList) (htag : '/' ∉ tag.toList) :
    '/' ∉ (taggedName name tag).toList := by
  have hending : '/' ∉ (ending name).toList ∧ '/' ∉ (stemAndExtension name).1.toList := by
    rcases eq_or_eq_append_of_stemAndExtension name with ⟨hstem, hnone⟩ | ⟨extension, hsome, heq⟩
    · rw [ending, hnone, hstem]
      exact ⟨by decide, hname⟩
    · rw [heq, String.toList_append, String.toList_append, List.mem_append, List.mem_append,
        not_or, not_or] at hname
      refine ⟨?_, hname.1.1⟩
      by_cases hne : extension = ""
      · rw [ending, hsome, hne]
        decide
      · rw [ending_of_eq_some hsome hne, String.toList_append, List.mem_append, not_or]
        exact ⟨by decide, hname.2⟩
  simp [taggedName, String.toList_append, hending.1, hending.2, htag]

/-- A tag is not empty and has nothing in it that means something in a path. -/
structure IsTag (tag : String) : Prop where
  ne_empty : tag ≠ ""
  dot_not_mem : '.' ∉ tag.toList
  slash_not_mem : '/' ∉ tag.toList

theorem isName_taggedName (hname : IsName name) (htag : IsTag tag) :
    IsName (taggedName name tag) := by
  obtain ⟨c, hc⟩ : ∃ c, c ∈ tag.toList := by
    refine List.exists_mem_of_ne_nil _ ?_
    simpa using htag.ne_empty
  have hmem : c ∈ (taggedName name tag).toList := by
    simp [taggedName, String.toList_append, hc]
  -- the pieces without slashes that are not names have no other characters than dots
  have hne (other : String) (hother : ∀ d ∈ other.toList, d = '.') :
      taggedName name tag ≠ other := by
    rintro rfl
    exact htag.dot_not_mem (hother c hmem ▸ hc)
  exact ⟨Path.isIdle_eq_false_iff.2 ⟨hne "" (by simp), hne "." (by simp)⟩,
    hne ".." (by simp), slash_not_mem_taggedName hname.slash_not_mem htag.slash_not_mem⟩

theorem hasExtension_taggedName (h : HasExtension name extension) (hne : extension ≠ "")
    (tag : String) : HasExtension (taggedName name tag) extension := by
  have hdot : '.' ∉ extension.toList := h.choose_spec.2.1
  have hstem : ((stemAndExtension name).1 ++ "." ++ tag).toList ≠ [] := by
    simp [String.toList_append]
  refine ⟨_, hstem, hdot, ?_⟩
  rw [taggedName, ending_of_eq_some (Path.extension_eq_some_iff.2 h) hne]
  simp [String.toList_append]

theorem taggedName_inj {other : String} (h : taggedName name tag = taggedName name other) :
    tag = other := by
  simpa [taggedName, ← String.toList_inj, String.toList_append] using h

end Names

/-! ### Paths with a tag -/

section Paths

variable {path name tag : String}

theorem tagged_of_fileName? (h : fileName? path = some name) :
    tagged path tag = withFileName path (taggedName name tag) := by
  rw [tagged, h, taggedName, ending]
  dsimp only
  generalize stemAndExtension name = parts
  obtain ⟨stem, extension⟩ := parts
  cases extension with
  | none => simp only [String.append_empty]
  | some extension =>
      by_cases hempty : extension = ""
      · subst hempty
        simp only [String.append_empty]
      · simp only [String.append_assoc]

/-- A path with a tag names another file in the same directory. -/
theorem fileName?_tagged (h : fileName? path = some name) (htag : IsTag tag) :
    fileName? (tagged path tag) = some (taggedName name tag) ∧
      parent? (tagged path tag) = parent? path := by
  obtain ⟨-, -, -, -, hname⟩ := Path.exists_pieces_of_fileName? h
  rw [tagged_of_fileName? h]
  exact Path.parent?_withFileName h (isName_taggedName hname htag)

theorem extension?_tagged {extension : String} (h : extension? path = some extension)
    (hne : extension ≠ "") (htag : IsTag tag) : extension? (tagged path tag) = some extension := by
  obtain ⟨name, hname, hextension⟩ := Path.extension?_eq_some_iff.1 h
  exact Path.extension?_eq_some_iff.2
    ⟨_, (fileName?_tagged hname htag).1, hasExtension_taggedName hextension hne tag⟩

end Paths

/-! ### Processes -/

theorem processTag_inj {p q : Nat} (h : processTag p = processTag q) : p = q := by
  have hdigits : Nat.toDigits 10 p = Nat.toDigits 10 q := by
    have hlists := congrArg String.toList h
    rwa [processTag, processTag, String.toList_ofList, String.toList_ofList] at hlists
  calc
    p = Nat.ofDigitChars 10 (Nat.toDigits 10 p) 0 := Nat.ofDigitChars_ten_toDigits.symm
    _ = Nat.ofDigitChars 10 (Nat.toDigits 10 q) 0 := by rw [hdigits]
    _ = q := Nat.ofDigitChars_ten_toDigits

theorem isTag_processTag (id : Nat) : IsTag (processTag id) := by
  have hdigit : ∀ c ∈ (processTag id).toList, c.isDigit = true := by
    rw [processTag, String.toList_ofList]
    exact fun _ hc => Nat.isDigit_of_mem_toDigits (by decide) (by decide) hc
  refine ⟨?_, fun hdot => absurd (hdigit _ hdot) (by decide),
    fun hslash => absurd (hdigit _ hslash) (by decide)⟩
  intro hempty
  have hnil := congrArg String.toList hempty
  rw [processTag, String.toList_ofList] at hnil
  exact Nat.toDigits_ne_nil hnil

/-- Two processes that tag a path with a file name write to files with different names. These lie
in the directory of the path, and they have its extension, if it is not empty. So logs that the
environment asks to be kept apart are. A path without a file name stays as it is. -/
theorem tagged_keeps_processes_apart (path : String) :
    (fileName? path = none → ∀ id, tagged path (processTag id) = path) ∧
      ∀ name, fileName? path = some name →
        (∀ p q, p ≠ q → ∃ one other, fileName? (tagged path (processTag p)) = some one ∧
          fileName? (tagged path (processTag q)) = some other ∧ one ≠ other ∧
            ∀ environment, environment "CSE_LOG_FILE" = some path →
              environment "CSE_LOG_UNIQUE" = some "true" →
                (ofEnvironment environment (processTag p)).file ≠
                  (ofEnvironment environment (processTag q)).file) ∧
          ∀ id, parent? (tagged path (processTag id)) = parent? path ∧
            ∀ extension, extension? path = some extension → extension ≠ "" →
              extension? (tagged path (processTag id)) = some extension := by
  refine ⟨fun hnone id => by rw [tagged, hnone], fun name hname =>
    ⟨fun p q hpq => ?_, fun id => ?_⟩⟩
  · have hone := (fileName?_tagged hname (isTag_processTag p)).1
    have hother := (fileName?_tagged hname (isTag_processTag q)).1
    have hne : taggedName name (processTag p) ≠ taggedName name (processTag q) :=
      fun h => hpq (processTag_inj (taggedName_inj h))
    refine ⟨_, _, hone, hother, hne, fun environment hfile hunique hsame => ?_⟩
    have hon : isOn environment "CSE_LOG_UNIQUE" = true := by
      rw [isOn, hunique]
      decide
    simp only [ofEnvironment, hfile, hon, Option.map_some, if_true, Option.some.injEq] at hsame
    rw [hsame, hother] at hone
    exact hne (Option.some.inj hone).symm
  · refine ⟨(fileName?_tagged hname (isTag_processTag id)).2, fun extension hextension hne => ?_⟩
    exact extension?_tagged hextension hne (isTag_processTag id)

/-- A file whose name begins with a dot, with two more dots and a slash behind it. -/
theorem tagged_keeps_processes_apart_hiddenFile :
    ∃ one other, fileName? (tagged "var//log/.cse.run.log/" (processTag 7)) = some one ∧
      fileName? (tagged "var//log/.cse.run.log/" (processTag 42)) = some other ∧ one ≠ other ∧
      parent? (tagged "var//log/.cse.run.log/" (processTag 7)) = some "var//log" ∧
      extension? (tagged "var//log/.cse.run.log/" (processTag 7)) = some "log" := by
  have hname : fileName? "var//log/.cse.run.log/" = some ".cse.run.log" := by decide +kernel
  have hparent : parent? "var//log/.cse.run.log/" = some "var//log" := by decide +kernel
  have hextension : extension? "var//log/.cse.run.log/" = some "log" := by decide +kernel
  obtain ⟨hapart, hkeeps⟩ := (tagged_keeps_processes_apart "var//log/.cse.run.log/").2 _ hname
  obtain ⟨one, other, hone, hother, hne, -⟩ := hapart 7 42 (by decide)
  exact ⟨one, other, hone, hother, hne, (hkeeps 7).1.trans hparent,
    (hkeeps 7).2 "log" hextension (by decide)⟩

example : tagged "var//log/.cse.run.log/" (processTag 42) = "var//log/.cse.run.42.log" := by
  decide +kernel

end BuildAtlas.LogSettings
