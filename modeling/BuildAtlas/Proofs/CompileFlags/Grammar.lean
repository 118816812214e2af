import BuildAtlas.Proofs.CompileFlags.Settings
import BuildAtlas.Proofs.Text

/-!
# BuildAtlas.Proofs.CompileFlags.Grammar

The grammar of flag lists, and what a list says that is written by it.

A `Flag` is one thing that may be written, with the proofs that no other flag is written with the
same words. Beginnings overlap: the flags of the C++ standards begin with those of the C standards,
and the value of a switch in the next word may look like a flag itself. `settings_words_append`
reads one flag in front of any words, and so a list of flags is read flag by flag whatever their
values are (`parse_written`).
-/

namespace BuildAtlas.CompileFlags

/-! ### What flags are made of -/

/-- What a switch begins with. -/
inductive Sign
  | dash
  | slash
  deriving Repr, DecidableEq

/-- The text of a sign. -/
def Sign.text : Sign → String
  | .dash => "-"
  | .slash => "/"

/-- The letter of a switch. -/
def Switch.letter : Switch → String
  | .includeDir => "I"
  | .define => "D"

/-- A switch with nothing glued to it. -/
def Switch.bare (switch : Switch) (sign : Sign) : String :=
  sign.text ++ switch.letter

/-- A family of language standards. -/
inductive Dialect
  | iso
  | gnu
  deriving Repr, DecidableEq

/-- What begins the flags of the C standards of a family. -/
def Dialect.text : Dialect → String
  | .iso => "-std=c"
  | .gnu => "-std=gnu"

/-- The word begins no flag that says something. -/
structure Unknown (word : String) : Prop where
  ne_system : word ≠ "-isystem"
  not_switch : ∀ switch sign, ¬(Switch.bare switch sign).toList <+: word.toList
  not_standard : ∀ dialect, ¬(Dialect.text dialect).toList <+: word.toList

/-! ### Flags -/

/-- One flag as it is written. -/
inductive Flag
  /-- A switch with its value glued to it. -/
  | glued (switch : Switch) (sign : Sign) (value : String) (value_ne : value ≠ "")
  /-- A switch with any word as its value. -/
  | split (switch : Switch) (sign : Sign) (value : String)
  /-- A directory of the system, which is always a word of its own. -/
  | system (dir : String)
  | cppStandard (dialect : Dialect) (version : String) (version_ne : version ≠ "")
  | cStandard (dialect : Dialect) (version : String) (version_ne : version ≠ "")
      (not_plus : ¬"++".toList <+: version.toList)
  /-- A word that says nothing. -/
  | other (word : String) (unknown : Unknown word)

namespace Flag

/-- The words that a flag is written with. -/
def words : Flag → List String
  | glued switch sign value _ => [switch.bare sign ++ value]
  | split switch sign value => [switch.bare sign, value]
  | system dir => ["-isystem", dir]
  | cppStandard dialect version _ => [dialect.text ++ "++" ++ version]
  | cStandard dialect version _ _ => [dialect.text ++ version]
  | other word _ => [word]

/-- What a flag says, if it says anything. -/
def setting? : Flag → Option Setting
  | glued .includeDir _ value _ | split .includeDir _ value => some (.includeDir value)
  | glued .define _ value _ | split .define _ value => some (.define value)
  | system dir => some (.includeDir dir)
  | cppStandard _ version _ => some (.cppStandard version)
  | cStandard _ version _ _ => some (.cStandard version)
  | other _ _ => none

end Flag

/-- A flag at the end of a list that lacks its value. -/
inductive Unfinished
  | bare (switch : Switch) (sign : Sign)
  | system

/-- The word of an unfinished flag. -/
def Unfinished.word : Unfinished → String
  | .bare switch sign => switch.bare sign
  | .system => "-isystem"

/-- The words of a list of flags, with an unfinished one at its end or none. -/
def written (flags : List Flag) (last : Option Unfinished) : List String :=
  flags.flatMap Flag.words ++ (last.map Unfinished.word).toList

/-! ### Reading the first word -/

theorem switch?_eq_some_iff {word value : String} {switch : Switch} :
    switch? word = some (switch, value) ↔ ∃ sign, word = switch.bare sign ++ value := by
  constructor
  · intro h
    unfold switch? at h
    split at h
    · rename_i first letter rest hword
      by_cases hfirst : first = '-' ∨ first = '/'
      · rw [if_pos hfirst] at h
        have hrest : switch.letter.toList = [letter] ∧ value = .ofList rest := by
          by_cases hI : letter = 'I'
          · rw [if_pos hI] at h
            obtain ⟨rfl, rfl⟩ := Prod.mk.inj (Option.some.inj h)
            exact ⟨hI ▸ rfl, rfl⟩
          · by_cases hD : letter = 'D'
            · rw [if_neg hI, if_pos hD] at h
              obtain ⟨rfl, rfl⟩ := Prod.mk.inj (Option.some.inj h)
              exact ⟨hD ▸ rfl, rfl⟩
            · rw [if_neg hI, if_neg hD] at h
              exact nomatch h
        obtain ⟨sign, hsign⟩ : ∃ sign : Sign, sign.text.toList = [first] := by
          rcases hfirst with rfl | rfl
          · exact ⟨.dash, rfl⟩
          · exact ⟨.slash, rfl⟩
        refine ⟨sign, String.toList_injective ?_⟩
        rw [hword, Switch.bare, String.toList_append, String.toList_append, hsign, hrest.1, hrest.2,
          String.toList_ofList]
        rfl
      · rw [if_neg hfirst] at h
        exact nomatch h
    · exact nomatch h
  · rintro ⟨sign, rfl⟩
    have hword : (switch.bare sign ++ value).toList
        = sign.text.toList ++ switch.letter.toList ++ value.toList := by
      simp only [Switch.bare, String.toList_append]
    cases sign <;> cases switch <;> simp [switch?, hword, Sign.text, Switch.letter]

theorem ofText_of_switch? {word value : String} {switch : Switch}
    (h : switch? word = some (switch, value)) :
    Word.ofText word = if value = "" then .awaiting switch else .setting (switch.apply value) := by
  have hsystem : word ≠ "-isystem" := by
    rintro rfl
    exact absurd h (by simp [switch?])
  rw [Word.ofText, if_neg hsystem, h]
  by_cases hvalue : value = ""
  · simp [hvalue]
  · simp [hvalue]

theorem ofText_glued (switch : Switch) (sign : Sign) {value : String} (hne : value ≠ "") :
    Word.ofText (switch.bare sign ++ value) = .setting (switch.apply value) := by
  rw [ofText_of_switch? (switch?_eq_some_iff.2 ⟨sign, rfl⟩), if_neg hne]

theorem ofText_bare (switch : Switch) (sign : Sign) :
    Word.ofText (switch.bare sign) = .awaiting switch := by
  have hswitch : switch? (switch.bare sign) = some (switch, "") :=
    switch?_eq_some_iff.2 ⟨sign, String.append_empty.symm⟩
  rw [ofText_of_switch? hswitch, if_pos rfl]

theorem ofText_system : Word.ofText "-isystem" = .awaiting .includeDir := by
  decide

/-- The first marker that begins a word is the one that is cut off. -/
theorem version?_eq_some (before : List String) {after : List String} {marker version : String}
    (hbefore : ∀ m ∈ before, ¬m.toList <+: (marker ++ version).toList) (hne : version ≠ "") :
    version? (before ++ marker :: after) (marker ++ version) = some version := by
  have hskip : before.findSome? (Text.dropStart? · (marker ++ version)) = none := by
    rw [List.findSome?_eq_none_iff]
    exact fun m hm => Text.dropStart?_eq_none_iff.2 (hbefore m hm)
  rw [version?, List.findSome?_append, hskip, List.findSome?_cons, Text.dropStart?_append]
  simp [hne]

theorem version?_eq_none {markers : List String} {word : String}
    (h : ∀ marker ∈ markers, ¬marker.toList <+: word.toList) : version? markers word = none := by
  have hnone : markers.findSome? (Text.dropStart? · word) = none := by
    rw [List.findSome?_eq_none_iff]
    exact fun marker hmarker => Text.dropStart?_eq_none_iff.2 (h marker hmarker)
  rw [version?, hnone]
  rfl

/-- A word that begins like a standard is no switch. -/
theorem switch?_standard (dialect : Dialect) (rest : String) :
    switch? (dialect.text ++ rest) = none := by
  cases dialect <;> simp [switch?, Dialect.text]

theorem standard_ne_system (dialect : Dialect) (rest : String) :
    dialect.text ++ rest ≠ "-isystem" := by
  intro h
  have hword := congrArg String.toList h
  cases dialect <;> simp [Dialect.text] at hword

theorem ofText_cppStandard (dialect : Dialect) {version : String} (hne : version ≠ "") :
    Word.ofText (dialect.text ++ ("++" ++ version)) = .setting (.cppStandard version) := by
  have hversion : version? cppMarkers (dialect.text ++ ("++" ++ version)) = some version := by
    rw [← String.append_assoc]
    cases dialect with
    | iso => exact version?_eq_some [] nofun hne
    | gnu =>
        refine version?_eq_some ["-std=c++"] (fun m hm => ?_) hne
        obtain rfl := List.mem_singleton.1 hm
        simp
  simp only [Word.ofText, if_neg (standard_ne_system dialect _), switch?_standard, hversion]

/-- The markers of the C++ standards are those of the C standards and two signs more, so they do
not begin the word. -/
theorem ofText_cStandard (dialect : Dialect) {version : String} (hne : version ≠ "")
    (hplus : ¬"++".toList <+: version.toList) :
    Word.ofText (dialect.text ++ version) = .setting (.cStandard version) := by
  have hcpp : version? cppMarkers (dialect.text ++ version) = none := by
    refine version?_eq_none fun marker hmarker => ?_
    have hsigns : ¬['+', '+'] <+: version.toList := hplus
    simp only [cppMarkers, List.mem_cons, List.not_mem_nil, or_false] at hmarker
    rcases hmarker with rfl | rfl <;> cases dialect <;> simp [Dialect.text, hsigns]
  have hc : version? cMarkers (dialect.text ++ version) = some version := by
    cases dialect with
    | iso => exact version?_eq_some [] nofun hne
    | gnu =>
        refine version?_eq_some ["-std=c"] (fun m hm => ?_) hne
        obtain rfl := List.mem_singleton.1 hm
        simp
  simp only [Word.ofText, if_neg (standard_ne_system dialect _), switch?_standard, hcpp, hc]

theorem ofText_unknown {word : String} (h : Unknown word) : Word.ofText word = .ignored := by
  have hswitch : switch? word = none := by
    rw [Option.eq_none_iff_forall_ne_some]
    intro found hfound
    obtain ⟨sign, rfl⟩ := switch?_eq_some_iff.1 hfound
    refine h.not_switch found.1 sign ⟨found.2.toList, ?_⟩
    rw [String.toList_append]
  have hc : version? cMarkers word = none := by
    refine version?_eq_none fun marker hmarker => ?_
    simp only [cMarkers, List.mem_cons, List.not_mem_nil, or_false] at hmarker
    rcases hmarker with rfl | rfl
    · exact h.not_standard .iso
    · exact h.not_standard .gnu
  have hcpp : version? cppMarkers word = none := by
    refine version?_eq_none fun marker hmarker hprefix => ?_
    simp only [cppMarkers, List.mem_cons, List.not_mem_nil, or_false] at hmarker
    rcases hmarker with rfl | rfl
    · exact h.not_standard .iso (.trans (by decide) hprefix)
    · exact h.not_standard .gnu (.trans (by decide) hprefix)
  simp only [Word.ofText, if_neg h.ne_system, hswitch, hcpp, hc]

/-! ### Reading flags -/

/-- A flag is read by its own words: a value is taken whatever it looks like, and nothing is taken
from the words that follow. -/
theorem settings_words_append (flag : Flag) (rest : List String) :
    settings (flag.words ++ rest) = flag.setting?.toList ++ settings rest := by
  cases flag with
  | glued switch sign value value_ne =>
      rw [Flag.words, List.singleton_append,
        settings_of_setting (ofText_glued switch sign value_ne)]
      cases switch <;> rfl
  | split switch sign value =>
      rw [Flag.words, List.cons_append, List.singleton_append,
        settings_of_awaiting (ofText_bare switch sign)]
      cases switch <;> rfl
  | system dir =>
      rw [Flag.words, List.cons_append, List.singleton_append, settings_of_awaiting ofText_system]
      rfl
  | cppStandard dialect version version_ne =>
      rw [Flag.words, List.singleton_append, String.append_assoc,
        settings_of_setting (ofText_cppStandard dialect version_ne)]
      rfl
  | cStandard dialect version version_ne not_plus =>
      rw [Flag.words, List.singleton_append,
        settings_of_setting (ofText_cStandard dialect version_ne not_plus)]
      rfl
  | other word unknown =>
      rw [Flag.words, List.singleton_append, settings_of_ignored (ofText_unknown unknown)]
      rfl

theorem settings_unfinished (last : Option Unfinished) :
    settings (last.map Unfinished.word).toList = [] := by
  cases last with
  | none => rfl
  | some last =>
      cases last with
      | bare switch sign => exact settings_of_awaiting_last (ofText_bare switch sign)
      | system => exact settings_of_awaiting_last ofText_system

theorem settings_written (flags : List Flag) (last : Option Unfinished) :
    settings (written flags last) = flags.filterMap Flag.setting? := by
  induction flags with
  | nil => exact settings_unfinished last
  | cons flag rest ih =>
      rw [written, List.flatMap_cons, List.append_assoc, settings_words_append,
        List.filterMap_cons, ← ih]
      cases flag.setting? <;> rfl

/-- Reading a list of flags gives what they say: all directories and all macros, in their order and
with their repeats, and the last standard of each language. A flag without its value at the end adds
nothing and takes nothing away. -/
theorem parse_written (flags : List Flag) (last : Option Unfinished) :
    parse (written flags last) =
      { includeDirs := (flags.filterMap Flag.setting?).filterMap Setting.includeDir?
        defines := (flags.filterMap Flag.setting?).filterMap Setting.define?
        cStandard :=
          ((flags.filterMap Flag.setting?).filterMap Setting.cVersion?).getLast?.getD "99"
        cppStandard :=
          ((flags.filterMap Flag.setting?).filterMap Setting.cppVersion?).getLast?.getD "11" } := by
  rw [parse_eq, settings_written]

/-- A value may look like a flag. -/
example : parse ["-D", "-Ifoo", "-isystem", "-std=c11", "/Ifoo", "-std=gnu++17", "-I"] =
    { includeDirs := ["-std=c11", "foo"], defines := ["-Ifoo"], cppStandard := "17" } := by
  decide +kernel

end BuildAtlas.CompileFlags
