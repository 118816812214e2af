import BuildAtlas.Proofs.Text
import BuildAtlas.Proofs.VisualStudio.Guid

/-!
# BuildAtlas.Proofs.VisualStudio.ProjectKey

What the key of a project stands for.

`projectKey_eq_iff` tells which texts share a key. Here is what makes the keys serve as names: the
number that a text spells is its only one and has 128 bits (`Spells.lt`, `Spells.unique`), the key
of an identifier spells the same number again (`Spells.projectKey`), and a key is its own key
(`projectKey_projectKey`), be it that of an identifier or of any other text.
-/

namespace BuildAtlas.VisualStudio

/-! ### Lower case and blanks -/

theorem isBlank_toLower (c : Char) : Text.isBlank c.toLower = Text.isBlank c := by
  induction c using forall_of_forall_ascii with
  | hascii n h => decide +revert
  | hother c h => rw [toLower_of_not_ascii h]

theorem toLower_eq_brace_iff {c brace : Char} (hbrace : brace = '\x7b' ∨ brace = '\x7d') :
    c.toLower = brace ↔ c = brace := by
  induction c using forall_of_forall_ascii with
  | hascii n h => rcases hbrace with rfl | rfl <;> decide +revert
  | hother c h => rw [toLower_of_not_ascii h]

theorem isBlank_of_isSome_hexValue? {c : Char} :
    (Text.hexValue? c).isSome → Text.isBlank c = false := by
  induction c using forall_of_forall_ascii with
  | hascii n h => decide +revert
  | hother c h => simp [hexValue?_of_not_ascii h]

/-- A trimmed text is trimmed in lower case too. -/
theorem trim_ofList_map_toLower (text : String) :
    Text.trim (.ofList ((Text.trim text).toList.map Char.toLower)) =
      .ofList ((Text.trim text).toList.map Char.toLower) := by
  have hblank : Text.isBlank ∘ Char.toLower = Text.isBlank := funext isBlank_toLower
  rw [Text.trim, Text.trimMatches, String.toList_ofList, Text.trimWhere_map, hblank, Text.trim,
    Text.trimMatches, String.toList_ofList, Text.trimWhere_trimWhere]

namespace Guid

/-- The hyphenated spelling has no blanks around it. -/
theorem trim_text {digits : List Char} (hlength : digits.length = 32) (hhex : AllHex digits) :
    Text.trim (text ⟨digits⟩) = text ⟨digits⟩ := by
  have hhyphen : ∀ c ∈ ['-'], Text.isBlank c = false := by
    rw [List.forall_mem_singleton]
    decide
  have hblank : ∀ c ∈ (text ⟨digits⟩).toList, Text.isBlank c = false := by
    rw [toList_text]
    refine Text.forall_mem_intercalate hhyphen fun group hgroup c hc => ?_
    exact isBlank_of_isSome_hexValue? ((isGrouped_grouped hlength hhex).hex group hgroup c hc)
  rw [Text.trim, Text.trimMatches, Text.trimWhere_of_forall hblank, String.ofList_toList]

/-- The case of the letters makes no difference for whether a text spells an identifier. -/
theorem isSome_ofChars?_map_toLower (cs : List Char) :
    (ofChars? (cs.map Char.toLower)).isSome = (ofChars? cs).isSome := by
  have hplain (cs : List Char) :
      (ofPlain? (cs.map Char.toLower)).isSome = (ofPlain? cs).isSome := by
    rw [Bool.eq_iff_iff]
    simp [ofPlain?, isHex_map_toLower]
  rw [ofChars?.eq_def, ofChars?.eq_def, ← List.map_take, ← List.map_drop, map_toLower_map_toLower]
  split
  · exact isSome_ofHyphenated?_map_toLower _
  · cases cs with
    | nil => rfl
    | cons c rest =>
        by_cases hc : c = '\x7b'
        · subst hc
          have hlast : (rest.map Char.toLower).getLast? = some '\x7d' ↔
              rest.getLast? = some '\x7d' := by
            simp [List.getLast?_map, toLower_eq_brace_iff]
          have hbrace : '\x7b'.toLower = '\x7b' := by decide
          simp only [List.map_cons, hbrace, hlast]
          split
          · rw [← List.map_dropLast, isSome_ofHyphenated?_map_toLower]
          · rfl
        · have hlower : c.toLower ≠ '\x7b' := mt (toLower_eq_brace_iff (.inl rfl)).1 hc
          simp only [List.map_cons]
          split
          · next h => exact absurd (List.cons.inj h).1 hlower
          · split
            · next h => exact absurd (List.cons.inj h).1 hc
            · rw [Option.isSome_or, Option.isSome_or, ← List.map_cons, hplain,
                isSome_ofHyphenated?_map_toLower]

end Guid

/-! ### Numbers of texts -/

namespace Spells

variable {text : String} {number other : Nat}

theorem of_ofChars? {guid : Guid} (h : Guid.ofChars? (Text.trim text).toList = some guid) :
    Spells text (numberOf guid.digits) := by
  obtain ⟨digits, hspelling, rfl⟩ := Guid.ofChars?_eq_some_iff.1 h
  refine ⟨digits, hspelling, ?_⟩
  rw [numberOf, numberOf, map_digitValue_map_toLower]

/-- An identifier has 128 bits. -/
theorem lt (h : Spells text number) : number < 2 ^ 128 := by
  obtain ⟨digits, hspelling, rfl⟩ := h
  have hbound := Nat.ofDigits_lt_base_pow_length (by decide) (lt_of_mem_values digits)
  rw [List.length_reverse, List.length_map, hspelling.length_digits] at hbound
  exact hbound

theorem unique (h : Spells text number) (hother : Spells text other) : other = number := by
  obtain ⟨digits, hspelling, rfl⟩ := h
  obtain ⟨ds, hds, rfl⟩ := hother
  exact (projectKey_eq_iff_of_spelling hds hspelling).1 rfl

/-- The key of an identifier spells it. -/
theorem projectKey (h : Spells text number) : Spells (projectKey text) number := by
  obtain ⟨digits, hspelling, rfl⟩ := h
  have hlength : (digits.map Char.toLower).length = 32 := by
    rw [List.length_map, hspelling.length_digits]
  have hhex := hspelling.allHex_digits.map_toLower
  rw [projectKey_of_spelling hspelling]
  refine ⟨digits.map Char.toLower, ?_, ?_⟩
  · have hgroups := Spelling.hyphenated (Guid.isGrouped_grouped hlength hhex)
    rwa [Guid.flatten_grouped, ← Guid.toList_text ⟨_⟩, ← Guid.trim_text hlength hhex] at hgroups
  · rw [numberOf, numberOf, map_digitValue_map_toLower]

end Spells

/-! ### Keys of keys -/

section Keys

variable {text : String}

/-- A text that spells no identifier has a key that spells none. -/
theorem not_spells_projectKey (h : ∀ number, ¬ Spells text number) :
    ∀ number, ¬ Spells (projectKey text) number := by
  rw [forall_not_spells_iff] at h ⊢
  rw [projectKey_of_not_spelling h, trim_ofList_map_toLower, String.toList_ofList,
    ← Guid.ofChars?_eq_none_iff, ← Option.isNone_iff_eq_none, ← Option.not_isSome,
    Guid.isSome_ofChars?_map_toLower, Option.not_isSome, Option.isNone_iff_eq_none]
  exact Guid.ofChars?_eq_none_iff.2 h

/-- A text and its key name the same project. -/
theorem sameProject_projectKey (text : String) : SameProject (projectKey text) text := by
  by_cases h : ∃ number, Spells text number
  · obtain ⟨number, hnumber⟩ := h
    exact .spelled number hnumber.projectKey hnumber
  · rw [not_exists] at h
    refine .plain (not_spells_projectKey h) h ?_
    rw [projectKey_of_not_spelling (forall_not_spells_iff.1 h), trim_ofList_map_toLower,
      String.toList_ofList, map_toLower_map_toLower]

theorem projectKey_projectKey (text : String) : projectKey (projectKey text) = projectKey text :=
  projectKey_eq_iff.2 (sameProject_projectKey text)

end Keys

/-- Two texts have the same key exactly when they spell the same identifier, or spell none and
differ in the case of letters and the blanks around them only. A text spells at most one
identifier, and that has 128 bits and is spelled by the key too, but has its key in common with no
text that spells none. A key is its own key. -/
theorem projectKey_identifies (one other : String) :
    (projectKey one = projectKey other ↔ SameProject one other) ∧
    (∀ number, Spells one number → number < 2 ^ 128 ∧
      (∀ found, Spells one found → found = number) ∧ Spells (projectKey one) number ∧
      ((∀ found, ¬ Spells other found) → projectKey one ≠ projectKey other)) ∧
    projectKey (projectKey one) = projectKey one := by
  refine ⟨projectKey_eq_iff, fun number hnumber => ?_, projectKey_projectKey one⟩
  refine ⟨hnumber.lt, fun found hfound => hnumber.unique hfound, hnumber.projectKey, ?_⟩
  intro hother
  obtain ⟨digits, hspelling, -⟩ := hnumber
  exact projectKey_ne hspelling (forall_not_spells_iff.1 hother)

/-- An identifier in braces and the same one in plain digits have one key, and a text in braces
that lacks a digit has another. -/
theorem projectKey_identifies_braced :
    Spells "\x7bAAAAAAAA-BBBB-CCCC-DDDD-EEEEEEEEEEEE\x7d" 0xaaaaaaaabbbbccccddddeeeeeeeeeeee ∧
      Spells " aaaaaaaabbbbccccddddEEEEEEEEEEEE" 0xaaaaaaaabbbbccccddddeeeeeeeeeeee ∧
      (∀ number, ¬ Spells "\x7bAAAAAAAA-BBBB-CCCC-DDDD-EEEEEEEEEEE\x7d" number) ∧
      projectKey "\x7bAAAAAAAA-BBBB-CCCC-DDDD-EEEEEEEEEEEE\x7d" =
        projectKey " aaaaaaaabbbbccccddddEEEEEEEEEEEE" ∧
      projectKey "\x7bAAAAAAAA-BBBB-CCCC-DDDD-EEEEEEEEEEEE\x7d" ≠
        projectKey "\x7bAAAAAAAA-BBBB-CCCC-DDDD-EEEEEEEEEEE\x7d" := by
  have hbraced : Spells "\x7bAAAAAAAA-BBBB-CCCC-DDDD-EEEEEEEEEEEE\x7d"
      0xaaaaaaaabbbbccccddddeeeeeeeeeeee :=
    @Spells.of_ofChars? _ ⟨"aaaaaaaabbbbccccddddeeeeeeeeeeee".toList⟩ (by decide +kernel)
  have hplain : Spells " aaaaaaaabbbbccccddddEEEEEEEEEEEE" 0xaaaaaaaabbbbccccddddeeeeeeeeeeee :=
    @Spells.of_ofChars? _ ⟨"aaaaaaaabbbbccccddddeeeeeeeeeeee".toList⟩ (by decide +kernel)
  have hnone : ∀ number, ¬ Spells "\x7bAAAAAAAA-BBBB-CCCC-DDDD-EEEEEEEEEEE\x7d" number :=
    forall_not_spells_iff.2 (Guid.ofChars?_eq_none_iff.1 (by decide +kernel))
  have hsame := (projectKey_identifies "\x7bAAAAAAAA-BBBB-CCCC-DDDD-EEEEEEEEEEEE\x7d"
    " aaaaaaaabbbbccccddddEEEEEEEEEEEE").1
  obtain ⟨-, hspelled, -⟩ := projectKey_identifies "\x7bAAAAAAAA-BBBB-CCCC-DDDD-EEEEEEEEEEEE\x7d"
    "\x7bAAAAAAAA-BBBB-CCCC-DDDD-EEEEEEEEEEE\x7d"
  exact ⟨hbraced, hplain, hnone, hsame.2 (.spelled _ hbraced hplain),
    (hspelled _ hbraced).2.2.2 hnone⟩

end BuildAtlas.VisualStudio
