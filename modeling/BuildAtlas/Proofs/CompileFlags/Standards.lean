import BuildAtlas.Proofs.CompileFlags.Grammar

/-!
# BuildAtlas.Proofs.CompileFlags.Standards

Which flags select the standards of C and of C++.

The flags of the C++ standards begin like those of the C standards. A word that is put where a flag
is read, that is, behind flags with their values (`flagByFlag_iff_complete`), selects a standard of
one language only, and which one that is depends on the signs behind the marker
(`ofText_eq_cStandard_iff`). The markers of C++ are an exception: with nothing behind
them they select no C++ standard, and their two signs are taken for a version of C
(`parse_insert_standard`). With that it is told of every list where its C standard comes from
(`exists_of_selectedC?`).
-/

namespace BuildAtlas.CompileFlags

/-! ### Where flags are read -/

/-- The words are flags, each with its value where that is a word of its own. So what follows them
is read as a flag. -/
inductive FlagByFlag : List String → Prop
  | nil : FlagByFlag []
  /-- A word that needs no value. -/
  | word {word : String} {rest : List String} (hword : ∀ flag : Unfinished, word ≠ flag.word)
      (hrest : FlagByFlag rest) : FlagByFlag (word :: rest)
  | pair {rest : List String} (flag : Unfinished) (value : String) (hrest : FlagByFlag rest) :
      FlagByFlag (flag.word :: value :: rest)

theorem exists_ofText_unfinished (flag : Unfinished) :
    ∃ switch, Word.ofText flag.word = .awaiting switch := by
  cases flag with
  | bare switch sign => exact ⟨switch, ofText_bare switch sign⟩
  | system => exact ⟨.includeDir, ofText_system⟩

/-- A word that is no switch is asked for a C++ standard before it is asked for a C standard. -/
theorem ofText_of_switch?_eq_none {word : String} (hsystem : word ≠ "-isystem")
    (hswitch : switch? word = none) : Word.ofText word =
      (((version? cppMarkers word).map fun version => Word.setting (.cppStandard version)).or
        ((version? cMarkers word).map fun version => .setting (.cStandard version))).getD
          .ignored := by
  rw [Word.ofText, if_neg hsystem, hswitch]
  cases version? cppMarkers word with
  | some version => rfl
  | none =>
      cases version? cMarkers word with
      | some version => rfl
      | none => rfl

/-- A word takes its value from the next one just when it is a flag that lacks its value. -/
theorem exists_unfinished_of_ofText {word : String} {switch : Switch}
    (h : Word.ofText word = .awaiting switch) : ∃ flag : Unfinished, word = flag.word := by
  by_cases hsystem : word = "-isystem"
  · exact ⟨.system, hsystem⟩
  · cases hswitch : switch? word with
    | some found =>
        obtain ⟨found, value⟩ := found
        obtain ⟨sign, hsign⟩ := switch?_eq_some_iff.1 hswitch
        rw [ofText_of_switch? hswitch, ite_eq_iff] at h
        have hvalue : value = "" := h.elim And.left fun hsetting => by simp at hsetting
        refine ⟨.bare found sign, ?_⟩
        rw [hsign, hvalue, String.append_empty]
        rfl
    | none =>
        rw [ofText_of_switch?_eq_none hsystem hswitch] at h
        cases hcpp : version? cppMarkers word with
        | some version => simp [hcpp] at h
        | none => cases hc : version? cMarkers word <;> simp [hcpp, hc] at h

theorem FlagByFlag.cons_of_ofText {word : String} {rest : List String}
    (hword : ∀ switch, Word.ofText word ≠ .awaiting switch) (hrest : FlagByFlag rest) :
    FlagByFlag (word :: rest) := by
  refine .word (fun flag hflag => ?_) hrest
  obtain ⟨switch, hswitch⟩ := exists_ofText_unfinished flag
  exact hword switch (hflag ▸ hswitch)

theorem FlagByFlag.pair_of_ofText {word : String} {switch : Switch}
    (hword : Word.ofText word = .awaiting switch) (value : String) {rest : List String}
    (hrest : FlagByFlag rest) : FlagByFlag (word :: value :: rest) := by
  obtain ⟨flag, rfl⟩ := exists_unfinished_of_ofText hword
  exact .pair flag value hrest

/-- Flags with their values are read to their end. -/
theorem FlagByFlag.complete {words : List String} (h : FlagByFlag words) : Complete words := by
  induction h with
  | nil => exact complete_nil
  | @word word rest hword hrest ih =>
      have hone : Complete [word] := complete_singleton fun switch hswitch => by
        obtain ⟨flag, hflag⟩ := exists_unfinished_of_ofText hswitch
        exact hword flag hflag
      exact hone.append ih
  | @pair rest flag value hrest ih =>
      obtain ⟨switch, hswitch⟩ := exists_ofText_unfinished flag
      exact (complete_pair hswitch value).append ih

/-- There are no other lists after which a flag is read. The induction goes along the reading. -/
theorem flagByFlag_iff_complete {words : List String} : FlagByFlag words ↔ Complete words := by
  refine ⟨FlagByFlag.complete, fun h => ?_⟩
  induction words using settings.induct with
  | case1 => exact .nil
  | case2 word words setting hword ih =>
      refine .cons_of_ofText (fun switch hswitch => nomatch hword.symm.trans hswitch)
        (ih fun rest => ?_)
      have hrest := h rest
      rw [List.cons_append, settings_of_setting hword, settings_of_setting hword] at hrest
      exact (List.cons.inj hrest).2
  | case3 word words hword ih =>
      refine .cons_of_ofText (fun switch hswitch => nomatch hword.symm.trans hswitch)
        (ih fun rest => ?_)
      have hrest := h rest
      rwa [List.cons_append, settings_of_ignored hword, settings_of_ignored hword] at hrest
  | case4 word switch hword =>
      -- the switch takes a word that says nothing by itself
      have hempty : Word.ofText "" = .ignored := by decide
      have hrest := h [""]
      rw [List.singleton_append, settings_of_awaiting hword, settings_of_awaiting_last hword,
        settings_of_ignored hempty] at hrest
      exact absurd hrest (List.cons_ne_nil _ _)
  | case5 word switch hword value words ih =>
      refine .pair_of_ofText hword value (ih fun rest => ?_)
      have hrest := h rest
      rw [List.cons_append, List.cons_append, settings_of_awaiting hword,
        settings_of_awaiting hword] at hrest
      exact (List.cons.inj hrest).2

/-! ### Selected versions -/

/-- The version of the C language that the words select last, if they select any. -/
def selectedC? (words : List String) : Option String :=
  ((settings words).filterMap Setting.cVersion?).getLast?

/-- The version of the C++ language that the words select last, if they select any. -/
def selectedCpp? (words : List String) : Option String :=
  ((settings words).filterMap Setting.cppVersion?).getLast?

theorem cStandard_parse (words : List String) :
    (parse words).cStandard = (selectedC? words).getD "99" := by
  rw [parse_eq, selectedC?]

/-- What a word is read as, where flags are read, stands among the settings at its place. -/
theorem FlagByFlag.settings_insert {before : List String} (h : FlagByFlag before) {word : String}
    {setting : Setting} (hword : Word.ofText word = .setting setting) (after : List String) :
    settings (before ++ word :: after) = settings before ++ setting :: settings after := by
  rw [h.complete, settings_of_setting hword]

/-- A word that selects a C standard changes nothing else. -/
theorem FlagByFlag.parse_insert_c {before : List String} (h : FlagByFlag before)
    {word version : String} (hword : Word.ofText word = .setting (.cStandard version))
    (after : List String) : parse (before ++ word :: after) =
      { parse (before ++ after) with cStandard := (selectedC? after).getD version } := by
  rw [parse_eq, parse_eq, h.settings_insert hword, h.complete after, selectedC?]
  simp [List.filterMap_cons, Setting.includeDir?, Setting.define?, Setting.cVersion?,
    Setting.cppVersion?, List.getLast?_cons]

/-- A word that selects a C++ standard changes nothing else. -/
theorem FlagByFlag.parse_insert_cpp {before : List String} (h : FlagByFlag before)
    {word version : String} (hword : Word.ofText word = .setting (.cppStandard version))
    (after : List String) : parse (before ++ word :: after) =
      { parse (before ++ after) with cppStandard := (selectedCpp? after).getD version } := by
  rw [parse_eq, parse_eq, h.settings_insert hword, h.complete after, selectedCpp?]
  simp [List.filterMap_cons, Setting.includeDir?, Setting.define?, Setting.cVersion?,
    Setting.cppVersion?, List.getLast?_cons]

theorem FlagByFlag.parse_insert_ignored {before : List String} (h : FlagByFlag before)
    {word : String} (hword : Word.ofText word = .ignored) (after : List String) :
    parse (before ++ word :: after) = parse (before ++ after) := by
  rw [parse, parse, h.complete, h.complete, settings_of_ignored hword]

/-! ### Words that select a standard -/

/-- What stands behind the marker of a C standard and is taken for a version: any text but the
empty one and but one that makes the word a flag of C++. -/
structure TakenForC (version : String) : Prop where
  ne_empty : version ≠ ""
  /-- The signs alone make no flag of C++. -/
  eq_signs : "++".toList <+: version.toList → version = "++"

theorem ofText_bareCpp (dialect : Dialect) :
    Word.ofText (dialect.text ++ "++") = .setting (.cStandard "++") := by
  cases dialect <;> decide

theorem ofText_bareC (dialect : Dialect) : Word.ofText dialect.text = .ignored := by
  cases dialect <;> decide

/-- A version stands behind one of the markers. -/
theorem exists_marker_of_version? {markers : List String} {word version : String}
    (h : version? markers word = some version) :
    ∃ marker ∈ markers, word = marker ++ version ∧ version ≠ "" := by
  rw [version?, Option.filter_eq_some_iff] at h
  obtain ⟨hfound, hne⟩ := h
  obtain ⟨marker, hmarker, hversion⟩ := List.exists_of_findSome?_eq_some hfound
  exact ⟨marker, hmarker, Text.dropStart?_eq_some_iff.1 hversion, by simpa using hne⟩

/-- A word that selects a C standard has one of the markers of C in front. -/
theorem version?_of_ofText {word version : String}
    (h : Word.ofText word = .setting (.cStandard version)) :
    version? cMarkers word = some version := by
  have hsystem : word ≠ "-isystem" := by
    rintro rfl
    simp [ofText_system] at h
  have hswitch : switch? word = none := by
    cases hfound : switch? word with
    | none => rfl
    | some found =>
        rw [ofText_of_switch? hfound, ite_eq_iff] at h
        cases hkind : found.1 <;> simp [hkind, Switch.apply] at h
  rw [ofText_of_switch?_eq_none hsystem hswitch] at h
  cases hcpp : version? cppMarkers word with
  | some found => simp [hcpp] at h
  | none =>
      cases hc : version? cMarkers word with
      | some found => simpa [hcpp, hc] using h
      | none => simp [hcpp, hc] at h

/-- The words that select a C standard. -/
theorem ofText_eq_cStandard_iff {word version : String} :
    Word.ofText word = .setting (.cStandard version) ↔
      ∃ dialect : Dialect, word = dialect.text ++ version ∧ TakenForC version := by
  constructor
  · intro h
    obtain ⟨marker, hmarker, hword, hne⟩ := exists_marker_of_version? (version?_of_ofText h)
    have hdialect : ∃ dialect : Dialect, marker = dialect.text := by
      simp only [cMarkers, List.mem_cons, List.not_mem_nil, or_false] at hmarker
      rcases hmarker with rfl | rfl
      · exact ⟨.iso, rfl⟩
      · exact ⟨.gnu, rfl⟩
    obtain ⟨dialect, rfl⟩ := hdialect
    refine ⟨dialect, hword, hne, fun hplus => ?_⟩
    obtain ⟨rest, hrest⟩ := hplus
    by_cases hempty : rest = []
    · exact String.toList_injective (by rw [← hrest, hempty, List.append_nil])
    · -- with more behind the signs the word would be a flag of C++
      have hversion : version = "++" ++ .ofList rest :=
        String.toList_injective (by rw [← hrest, String.toList_append, @String.toList_ofList rest])
      rw [hword, hversion, ofText_cppStandard dialect (by simpa using hempty)] at h
      simp at h
  · rintro ⟨dialect, rfl, hversion⟩
    by_cases hplus : "++".toList <+: version.toList
    · rw [hversion.eq_signs hplus]
      exact ofText_bareCpp dialect
    · exact ofText_cStandard dialect hversion.ne_empty hplus

/-! ### Where the C standard of a list comes from -/

theorem eq_cStandard_of_cVersion? {setting : Setting} {version : String}
    (h : setting.cVersion? = some version) : setting = .cStandard version := by
  cases setting with
  | cStandard found => exact congrArg _ (Option.some.inj h)
  | includeDir dir => exact nomatch h
  | define text => exact nomatch h
  | cppStandard found => exact nomatch h

theorem selectedC?_of_setting {word : String} {setting : Setting}
    (hword : Word.ofText word = .setting setting) (words : List String) :
    selectedC? (word :: words) = (selectedC? words).or setting.cVersion? := by
  rw [selectedC?, settings_of_setting hword, List.filterMap_cons]
  cases setting.cVersion? with
  | none => simp [selectedC?]
  | some version =>
      rw [List.getLast?_cons, selectedC?]
      cases ((settings words).filterMap Setting.cVersion?).getLast? <;> rfl

/-- The value of a switch selects no standard. -/
theorem selectedC?_of_awaiting {word : String} {switch : Switch}
    (hword : Word.ofText word = .awaiting switch) (value : String) (words : List String) :
    selectedC? (word :: value :: words) = selectedC? words := by
  rw [selectedC?, settings_of_awaiting hword]
  cases switch <;> rfl

/-- The version that counts stands in a flag behind which no C standard is selected. The induction
goes along the reading, which takes one word or two at a time. -/
theorem exists_of_selectedC? {words : List String} {version : String}
    (h : selectedC? words = some version) : ∃ before dialect after,
      words = before ++ (Dialect.text dialect ++ version) :: after ∧ FlagByFlag before ∧
        TakenForC version ∧ selectedC? after = none := by
  induction words using settings.induct with
  | case1 => exact nomatch h
  | case2 word words setting hword ih =>
      rw [selectedC?_of_setting hword, Option.or_eq_some_iff] at h
      rcases h with h | ⟨hnone, h⟩
      · obtain ⟨before, dialect, after, rfl, hbefore, hversion, hafter⟩ := ih h
        have hflags : FlagByFlag (word :: before) :=
          .cons_of_ofText (fun switch hswitch => nomatch hword.symm.trans hswitch) hbefore
        exact ⟨word :: before, dialect, after, rfl, hflags, hversion, hafter⟩
      · obtain rfl := eq_cStandard_of_cVersion? h
        obtain ⟨dialect, rfl, hversion⟩ := ofText_eq_cStandard_iff.1 hword
        exact ⟨[], dialect, words, rfl, .nil, hversion, hnone⟩
  | case3 word words hword ih =>
      rw [selectedC?, settings_of_ignored hword] at h
      obtain ⟨before, dialect, after, rfl, hbefore, hversion, hafter⟩ := ih h
      have hflags : FlagByFlag (word :: before) :=
        .cons_of_ofText (fun switch hswitch => nomatch hword.symm.trans hswitch) hbefore
      exact ⟨word :: before, dialect, after, rfl, hflags, hversion, hafter⟩
  | case4 word switch hword =>
      rw [selectedC?, settings_of_awaiting_last hword] at h
      exact nomatch h
  | case5 word switch hword value words ih =>
      rw [selectedC?_of_awaiting hword] at h
      obtain ⟨before, dialect, after, rfl, hbefore, hversion, hafter⟩ := ih h
      exact ⟨word :: value :: before, dialect, after, rfl, .pair_of_ofText hword value hbefore,
        hversion, hafter⟩

/-- The C standard of a list is the usual one, or stands in a flag behind which there is none. -/
theorem cStandard_parse_cases (words : List String) :
    (parse words).cStandard = "99" ∨ ∃ before dialect after,
      words = before ++ (Dialect.text dialect ++ (parse words).cStandard) :: after ∧
        FlagByFlag before ∧ TakenForC (parse words).cStandard ∧ selectedC? after = none := by
  rw [cStandard_parse]
  cases h : selectedC? words with
  | none => exact .inl rfl
  | some version => exact .inr (exists_of_selectedC? h)

/-- The signs of C++ are the C standard of the lists in which a marker of C++ with nothing behind it
is the last flag that selects one. -/
theorem signs_prefix_cStandard_iff (words : List String) :
    "++".toList <+: (parse words).cStandard.toList ↔ ∃ before dialect after,
      words = before ++ (Dialect.text dialect ++ "++") :: after ∧ FlagByFlag before ∧
        selectedC? after = none := by
  constructor
  · intro hplus
    rcases cStandard_parse_cases words with
        h | ⟨before, dialect, after, hwords, hbefore, htaken, hafter⟩
    · rw [h] at hplus
      exact absurd hplus (by decide)
    · rw [htaken.eq_signs hplus] at hwords
      exact ⟨before, dialect, after, hwords, hbefore, hafter⟩
  · rintro ⟨before, dialect, after, rfl, hbefore, hafter⟩
    rw [hbefore.parse_insert_c (ofText_bareCpp dialect), hafter]
    exact List.prefix_refl _

theorem cStandard_parse_ne_empty (words : List String) : (parse words).cStandard ≠ "" := by
  rcases cStandard_parse_cases words with h | ⟨before, dialect, after, -, -, htaken, -⟩
  · rw [h]
    decide
  · exact htaken.ne_empty

/-- Where a flag is read, a flag of a C++ standard with a version can be put in or taken out, and
nothing but the C++ standard changes. A flag that begins like one of a C standard and not like one
of a C++ standard changes nothing but the C standard there. A marker of C++ alone changes the C
standard too: it counts as a flag with the version `++`, and such a marker, where it is the last
flag that selects a C standard, is the only way to a C standard that begins with these signs. -/
theorem parse_insert_standard (words : List String) :
    (∀ before after, words = before ++ after → FlagByFlag before → ∀ dialect : Dialect,
      (∀ version, version ≠ "" →
        parse (before ++ (dialect.text ++ ("++" ++ version)) :: after) =
          { parse words with cppStandard := (selectedCpp? after).getD version }) ∧
      (∀ version, version ≠ "" → ¬ "++".toList <+: version.toList →
        parse (before ++ (dialect.text ++ version) :: after) =
          { parse words with cStandard := (selectedC? after).getD version }) ∧
      parse (before ++ dialect.text :: after) = parse words ∧
      parse (before ++ (dialect.text ++ "++") :: after) =
        { parse words with cStandard := (selectedC? after).getD "++" }) ∧
    (parse words).cStandard ≠ "" ∧
    ("++".toList <+: (parse words).cStandard.toList ↔ ∃ before dialect after,
      words = before ++ (Dialect.text dialect ++ "++") :: after ∧ FlagByFlag before ∧
        selectedC? after = none) := by
  refine ⟨?_, cStandard_parse_ne_empty words, signs_prefix_cStandard_iff words⟩
  intro before after hwords hbefore dialect
  subst hwords
  refine ⟨fun version hne => ?_, fun version hne hplus => ?_, ?_, ?_⟩
  · exact hbefore.parse_insert_cpp (ofText_cppStandard dialect hne) after
  · exact hbefore.parse_insert_c (ofText_cStandard dialect hne hplus) after
  · exact hbefore.parse_insert_ignored (ofText_bareC dialect) after
  · exact hbefore.parse_insert_c (ofText_bareCpp dialect) after

/-- A word that looks like a flag is the value of a switch here. -/
theorem parse_insert_standard_behindValue :
    FlagByFlag ["-I", "-std=c++17"] ∧
      parse ["-I", "-std=c++17", "-std=gnu++2a", "-std=c11"] =
        { parse ["-I", "-std=c++17", "-std=c11"] with cppStandard := "2a" } ∧
      parse ["-I", "-std=c++17", "-std=gnu17", "-std=c11"] =
        parse ["-I", "-std=c++17", "-std=c11"] := by
  have hfront : FlagByFlag ["-I", "-std=c++17"] := .pair (.bare .includeDir .dash) _ .nil
  obtain ⟨hinsert, -⟩ := parse_insert_standard ["-I", "-std=c++17", "-std=c11"]
  obtain ⟨hcpp, hc, -⟩ := hinsert _ ["-std=c11"] rfl hfront .gnu
  exact ⟨hfront, hcpp "2a" (by decide), hc "17" (by decide) (by decide)⟩

/-- A marker of C++ with nothing behind it changes the C standard. -/
theorem cStandard_ne_of_bareMarker :
    FlagByFlag [] ∧ (parse ([] ++ "-std=c++" :: [])).cStandard ≠ (parse ([] ++ [])).cStandard ∧
      (parse ["-std=c++"]).cStandard = "++" := by
  refine ⟨.nil, ?_, ?_⟩
  · decide
  · decide

end BuildAtlas.CompileFlags
