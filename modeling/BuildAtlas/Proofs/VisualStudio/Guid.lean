import BuildAtlas.VisualStudio.Guid
import Mathlib.Data.List.Basic
import Mathlib.Data.Nat.Digits.Lemmas

/-!
# BuildAtlas.Proofs.VisualStudio.Guid

Which texts name the same project.

`Spelling` lists the spellings of an identifier, `numberOf` is the number that its digits write, and
two texts name the `SameProject` when they spell the same number, or spell none and differ in the
case of letters only. The key of a project tells exactly these apart (`projectKey_eq_iff`): a text
that spells no identifier never has the key of one that does, since the case of a text does not
matter for whether it is hyphenated (`isSome_ofHyphenated?_map_toLower`).
-/

namespace BuildAtlas.VisualStudio

open Text (hexDigit hexValue?)

/-! ### Digits and their case -/

/-- What holds of the ASCII characters, one by one, and of all others holds of every character. -/
theorem forall_of_forall_ascii {p : Char → Prop} (hascii : ∀ n < 128, p (Char.ofNat n))
    (hother : ∀ c : Char, 128 ≤ c.toNat → p c) (c : Char) : p c := by
  by_cases h : c.toNat < 128
  · rw [← Char.ofNat_toNat c]
    exact hascii _ h
  · exact hother c (Nat.le_of_not_lt h)

theorem toLower_of_not_ascii {c : Char} (h : 128 ≤ c.toNat) : c.toLower = c := by
  have hupper : ¬ (c.val ≥ 'A'.val ∧ c.val ≤ 'Z'.val) := by
    rw [ge_iff_le, UInt32.le_iff_toNat_le, UInt32.le_iff_toNat_le]
    change ¬ (65 ≤ c.toNat ∧ c.toNat ≤ 90)
    omega
  exact dif_neg hupper

theorem hexValue?_of_not_ascii {c : Char} (h : 128 ≤ c.toNat) : hexValue? c = none := by
  have hdigit : c.isDigit = false := by
    rw [Char.isDigit, Bool.and_eq_false_iff, decide_eq_false_iff_not, decide_eq_false_iff_not]
    refine .inr ?_
    rw [UInt32.le_iff_toNat_le]
    change ¬ c.toNat ≤ 57
    omega
  have hlower : ¬ ('a' ≤ c ∧ c ≤ 'f') := by
    rw [Char.le_def, Char.le_def, UInt32.le_iff_toNat_le, UInt32.le_iff_toNat_le]
    change ¬ (97 ≤ c.toNat ∧ c.toNat ≤ 102)
    omega
  have hupper : ¬ ('A' ≤ c ∧ c ≤ 'F') := by
    rw [Char.le_def, Char.le_def, UInt32.le_iff_toNat_le, UInt32.le_iff_toNat_le]
    change ¬ (65 ≤ c.toNat ∧ c.toNat ≤ 70)
    omega
  rw [hexValue?, if_neg (ne_true_of_eq_false hdigit), if_neg hlower, if_neg hupper]

@[simp] theorem hexValue?_toLower (c : Char) : hexValue? c.toLower = hexValue? c := by
  induction c using forall_of_forall_ascii with
  | hascii n h => decide +revert
  | hother c h => rw [toLower_of_not_ascii h]

theorem toLower_of_hexValue? {c : Char} : ∀ n ∈ hexValue? c, n < 16 ∧ c.toLower = hexDigit n := by
  induction c using forall_of_forall_ascii with
  | hascii n h => decide +revert
  | hother c h => simp [hexValue?_of_not_ascii h]

theorem toLower_eq_hyphen_iff {c : Char} : c.toLower = '-' ↔ c = '-' := by
  induction c using forall_of_forall_ascii with
  | hascii n h => decide +revert
  | hother c h => rw [toLower_of_not_ascii h]

theorem toLower_toLower (c : Char) : c.toLower.toLower = c.toLower := by
  induction c using forall_of_forall_ascii with
  | hascii n h => decide +revert
  | hother c h => rw [toLower_of_not_ascii h, toLower_of_not_ascii h]

/-- Hexadecimal digits and nothing else. -/
def AllHex (cs : List Char) : Prop :=
  ∀ c ∈ cs, (hexValue? c).isSome

/-- The value of a hexadecimal digit. -/
def digitValue (c : Char) : Nat :=
  (hexValue? c).getD 0

/-- The number that hexadecimal digits write, the highest one first. -/
def numberOf (digits : List Char) : Nat :=
  Nat.ofDigits 16 (digits.map digitValue).reverse

section Digits

variable {cs ds : List Char}

theorem digitValue_lt (c : Char) : digitValue c < 16 := by
  rw [digitValue]
  cases h : hexValue? c with
  | none => exact Nat.zero_lt_succ 15
  | some n => exact (toLower_of_hexValue? n h).1

theorem lt_of_mem_values (digits : List Char) :
    ∀ n ∈ (digits.map digitValue).reverse, n < 16 := by
  intro n hn
  obtain ⟨c, -, rfl⟩ := List.mem_map.1 (List.mem_reverse.1 hn)
  exact digitValue_lt c

theorem map_digitValue_map_toLower (cs : List Char) :
    (cs.map Char.toLower).map digitValue = cs.map digitValue := by
  rw [List.map_map]
  exact List.map_congr_left fun c _ => by simp [digitValue]

theorem map_hexDigit_map_digitValue (h : AllHex cs) :
    (cs.map digitValue).map hexDigit = cs.map Char.toLower := by
  rw [List.map_map]
  refine List.map_congr_left fun c hc => ?_
  obtain ⟨n, hn⟩ := Option.isSome_iff_exists.1 (h c hc)
  rw [Function.comp_apply, digitValue, hn, Option.getD_some, (toLower_of_hexValue? n hn).2]

theorem AllHex.map_toLower (h : AllHex cs) : AllHex (cs.map Char.toLower) := by
  intro c hc
  obtain ⟨d, hd, rfl⟩ := List.mem_map.1 hc
  rw [hexValue?_toLower]
  exact h d hd

theorem map_toLower_map_toLower (cs : List Char) :
    (cs.map Char.toLower).map Char.toLower = cs.map Char.toLower := by
  rw [List.map_map]
  exact List.map_congr_left fun c _ => toLower_toLower c

/-- As many digits of each other write the same number exactly when they differ in case only. -/
theorem map_toLower_eq_iff (hcs : AllHex cs) (hds : AllHex ds) (hlength : cs.length = ds.length) :
    cs.map Char.toLower = ds.map Char.toLower ↔ numberOf cs = numberOf ds := by
  constructor
  · intro h
    rw [numberOf, numberOf, ← map_digitValue_map_toLower, h, map_digitValue_map_toLower]
  · intro h
    have hvalues := Nat.ofDigits_inj_of_len_eq (by decide) (by simpa using hlength)
      (lt_of_mem_values cs) (lt_of_mem_values ds) h
    rw [← map_hexDigit_map_digitValue hcs, ← map_hexDigit_map_digitValue hds,
      List.reverse_injective hvalues]

end Digits

/-! ### Spellings -/

/-- Groups of digits like those that hyphens part in an identifier. -/
structure IsGrouped (groups : List (List Char)) : Prop where
  lengths : groups.map List.length = [8, 4, 4, 4, 12]
  hex : ∀ group ∈ groups, AllHex group

/-- A text spells an identifier with these digits. -/
inductive Spelling : List Char → List Char → Prop
  | plain {digits : List Char} (hlength : digits.length = 32) (hhex : AllHex digits) :
      Spelling digits digits
  | hyphenated {groups : List (List Char)} (h : IsGrouped groups) :
      Spelling (['-'].intercalate groups) groups.flatten
  | braced {groups : List (List Char)} (h : IsGrouped groups) :
      Spelling ('\x7b' :: (['-'].intercalate groups ++ ['\x7d'])) groups.flatten
  /-- The case of the letters in front does not count. -/
  | urn {front : List Char} (hfront : front.map Char.toLower = "urn:uuid:".toList)
      {groups : List (List Char)} (h : IsGrouped groups) :
      Spelling (front ++ ['-'].intercalate groups) groups.flatten

/-- A text spells the identifier that is this number. The blanks around it do not count. -/
def Spells (text : String) (number : Nat) : Prop :=
  ∃ digits, Spelling (Text.trim text).toList digits ∧ numberOf digits = number

/-- Two texts name the same project. -/
inductive SameProject (one other : String) : Prop
  /-- They spell the same identifier. -/
  | spelled (number : Nat) (hone : Spells one number) (hother : Spells other number)
  /-- They spell none and are equal but for the case of ASCII letters and the blanks around them. -/
  | plain (hone : ∀ number, ¬ Spells one number) (hother : ∀ number, ¬ Spells other number)
      (h : (Text.trim one).toList.map Char.toLower = (Text.trim other).toList.map Char.toLower)

namespace IsGrouped

variable {groups : List (List Char)}

theorem length_flatten (h : IsGrouped groups) : groups.flatten.length = 32 := by
  rw [List.length_flatten, h.lengths]
  rfl

theorem allHex_flatten (h : IsGrouped groups) : AllHex groups.flatten :=
  List.forall_mem_flatten.2 h.hex

theorem ne_nil (h : IsGrouped groups) : groups ≠ [] := by
  rintro rfl
  exact nomatch h.lengths

theorem hyphen_not_mem (h : IsGrouped groups) : ∀ group ∈ groups, '-' ∉ group := by
  intro group hgroup hhyphen
  exact absurd (h.hex group hgroup '-' hhyphen) (by decide)

/-- The first character of the hyphenated spelling is a digit. -/
theorem exists_cons (h : IsGrouped groups) :
    ∃ c rest, ['-'].intercalate groups = c :: rest ∧ (hexValue? c).isSome := by
  obtain ⟨group, more, rfl⟩ := List.exists_cons_of_ne_nil h.ne_nil
  cases group with
  | nil => exact nomatch (List.cons.inj h.lengths).1
  | cons c group =>
      refine ⟨c, (['-'].intercalate ((c :: group) :: more)).tail, ?_,
        h.hex _ List.mem_cons_self c List.mem_cons_self⟩
      cases more with
      | nil => simp
      | cons next more => simp [List.intercalate_cons_cons]

end IsGrouped

namespace Spelling

variable {cs digits : List Char}

theorem length_digits (h : Spelling cs digits) : digits.length = 32 := by
  cases h with
  | plain hlength _ => exact hlength
  | hyphenated h => exact h.length_flatten
  | braced h => exact h.length_flatten
  | urn _ h => exact h.length_flatten

theorem allHex_digits (h : Spelling cs digits) : AllHex digits := by
  cases h with
  | plain _ hhex => exact hhex
  | hyphenated h => exact h.allHex_flatten
  | braced h => exact h.allHex_flatten
  | urn _ h => exact h.allHex_flatten

end Spelling

/-! ### Reading -/

namespace Guid

variable {cs : List Char} {guid : Guid}

theorem isHex_iff : isHex cs = true ↔ AllHex cs :=
  List.all_eq_true

theorem ofPlain?_eq_some_iff : ofPlain? cs = some guid ↔
    cs.length = 32 ∧ AllHex cs ∧ guid = ⟨cs.map Char.toLower⟩ := by
  simp only [ofPlain?, Option.ite_none_right_eq_some, Bool.and_eq_true, decide_eq_true_eq,
    isHex_iff, Option.some.injEq, and_assoc, eq_comm (a := guid)]

theorem ofHyphenated?_eq_some_iff : ofHyphenated? cs = some guid ↔ ∃ groups, IsGrouped groups ∧
    cs = ['-'].intercalate groups ∧ guid = ⟨groups.flatten.map Char.toLower⟩ := by
  have hread : ofHyphenated? cs = some guid ↔ IsGrouped (cs.splitOn '-') ∧
      guid = ⟨(cs.splitOn '-').flatten.map Char.toLower⟩ := by
    simp only [ofHyphenated?, Option.ite_none_right_eq_some, Bool.and_eq_true, decide_eq_true_eq,
      List.all_eq_true, isHex_iff, Option.some.injEq, eq_comm (a := guid)]
    exact and_congr_left' ⟨fun h => ⟨h.1, h.2⟩, fun h => ⟨h.lengths, h.hex⟩⟩
  rw [hread]
  constructor
  · rintro ⟨hgrouped, rfl⟩
    exact ⟨_, hgrouped, (List.intercalate_splitOn '-').symm, rfl⟩
  · rintro ⟨groups, hgrouped, rfl, rfl⟩
    rw [List.splitOn_intercalate '-' hgrouped.hyphen_not_mem hgrouped.ne_nil]
    exact ⟨hgrouped, rfl⟩

/-- A text that begins with a digit is plain or hyphenated. -/
theorem ofChars?_of_digit {c : Char} {rest : List Char} (hc : (hexValue? c).isSome) :
    ofChars? (c :: rest) = (ofPlain? (c :: rest)).or (ofHyphenated? (c :: rest)) := by
  have hurn : ¬ ((c :: rest).take urn.length).map Char.toLower = urn := by
    intro h
    have hhead : c.toLower = 'u' := (List.cons.inj h).1
    rw [← hexValue?_toLower, hhead] at hc
    exact absurd hc (by decide)
  have hbrace : c ≠ '\x7b' := by
    rintro rfl
    exact absurd hc (by decide)
  rw [ofChars?.eq_def, if_neg hurn]
  split
  · next h => exact absurd (List.cons.inj h).1 hbrace
  · rfl

theorem ofChars?_braced (cs : List Char) :
    ofChars? ('\x7b' :: (cs ++ ['\x7d'])) = ofHyphenated? cs := by
  have hurn : ¬ (('\x7b' :: (cs ++ ['\x7d'])).take urn.length).map Char.toLower = urn :=
    fun h => absurd (List.cons.inj h).1 (by decide)
  rw [ofChars?.eq_def, if_neg hurn]
  simp

theorem ofChars?_urn {front : List Char} (h : front.map Char.toLower = urn) :
    ofChars? (front ++ cs) = ofHyphenated? cs := by
  have hlength : front.length = urn.length := by rw [← h, List.length_map]
  rw [ofChars?.eq_def, ← hlength, List.take_left, List.drop_left, if_pos h]

theorem ofPlain?_intercalate {groups : List (List Char)} (h : IsGrouped groups) :
    ofPlain? (['-'].intercalate groups) = none := by
  rw [Option.eq_none_iff_forall_ne_some]
  intro guid hguid
  -- without a hyphen there is one group only
  have hhyphen : ∀ group ∈ [['-'].intercalate groups], '-' ∉ group := by
    rw [List.forall_mem_singleton]
    intro hmem
    exact absurd ((ofPlain?_eq_some_iff.1 hguid).2.1 _ hmem) (by decide)
  have hsplit := List.splitOn_intercalate '-' hhyphen (List.cons_ne_nil _ _)
  rw [List.intercalate_singleton, List.splitOn_intercalate '-' h.hyphen_not_mem h.ne_nil] at hsplit
  have hlengths := h.lengths
  rw [hsplit] at hlengths
  exact nomatch (List.cons.inj hlengths).2

/-- The spellings are read, and nothing else is. -/
theorem ofChars?_eq_some_iff : ofChars? cs = some guid ↔
    ∃ digits, Spelling cs digits ∧ guid = ⟨digits.map Char.toLower⟩ := by
  constructor
  · intro h
    rw [ofChars?.eq_def] at h
    split at h
    · next hurn =>
        obtain ⟨groups, hgrouped, hcs, rfl⟩ := ofHyphenated?_eq_some_iff.1 h
        refine ⟨_, ?_, rfl⟩
        rw [← List.take_append_drop urn.length cs, hcs]
        exact .urn hurn hgrouped
    · split at h
      · next rest =>
          rw [Option.ite_none_right_eq_some] at h
          obtain ⟨hlast, h⟩ := h
          obtain ⟨groups, hgrouped, hcs, rfl⟩ := ofHyphenated?_eq_some_iff.1 h
          refine ⟨_, ?_, rfl⟩
          rw [← List.dropLast_append_getLast? _ hlast, hcs]
          exact .braced hgrouped
      · rcases Option.or_eq_some_iff.1 h with h | ⟨-, h⟩
        · obtain ⟨hlength, hhex, rfl⟩ := ofPlain?_eq_some_iff.1 h
          exact ⟨_, .plain hlength hhex, rfl⟩
        · obtain ⟨groups, hgrouped, rfl, rfl⟩ := ofHyphenated?_eq_some_iff.1 h
          exact ⟨_, .hyphenated hgrouped, rfl⟩
  · rintro ⟨digits, hspelling, rfl⟩
    have hread {groups : List (List Char)} (h : IsGrouped groups) :
        ofHyphenated? (['-'].intercalate groups) = some ⟨groups.flatten.map Char.toLower⟩ :=
      ofHyphenated?_eq_some_iff.2 ⟨groups, h, rfl, rfl⟩
    cases hspelling with
    | plain hlength hhex =>
        obtain ⟨c, rest, rfl⟩ := List.exists_cons_of_length_eq_add_one hlength
        rw [ofChars?_of_digit (hhex c List.mem_cons_self),
          ofPlain?_eq_some_iff.2 ⟨hlength, hhex, rfl⟩, Option.some_or]
    | hyphenated h =>
        obtain ⟨c, rest, htext, hc⟩ := h.exists_cons
        rw [htext, ofChars?_of_digit hc, ← htext, ofPlain?_intercalate h, Option.none_or, hread h]
    | braced h => rw [ofChars?_braced, hread h]
    | urn hfront h => rw [ofChars?_urn hfront, hread h]

theorem ofChars?_eq_none_iff : ofChars? cs = none ↔ ∀ digits, ¬ Spelling cs digits := by
  rw [Option.eq_none_iff_forall_ne_some]
  constructor
  · exact fun h digits hspelling => h _ (ofChars?_eq_some_iff.2 ⟨digits, hspelling, rfl⟩)
  · intro h guid hguid
    obtain ⟨digits, hspelling, -⟩ := ofChars?_eq_some_iff.1 hguid
    exact h digits hspelling

/-! ### Writing -/

theorem splitOn_map {f : Char → Char} {c : Char} (h : ∀ d, f d = c ↔ d = c) (cs : List Char) :
    (cs.map f).splitOn c = (cs.splitOn c).map (List.map f) := by
  induction cs with
  | nil => rfl
  | cons d cs ih =>
      rw [List.map_cons, List.splitOn_cons_eq_if_modifyHead, List.splitOn_cons_eq_if_modifyHead, ih]
      by_cases hd : d = c
      · rw [if_pos (by simpa using (h d).2 hd), if_pos (by simpa using hd)]
        rfl
      · rw [if_neg (by simpa using mt (h d).1 hd), if_neg (by simpa using hd)]
        cases cs.splitOn c with
        | nil => rfl
        | cons first more => rfl

theorem isHex_map_toLower (cs : List Char) : isHex (cs.map Char.toLower) = isHex cs := by
  simp [isHex, List.all_map, Function.comp_def]

/-- The case of the letters makes no difference for whether a text is hyphenated. -/
theorem isSome_ofHyphenated?_map_toLower (cs : List Char) :
    (ofHyphenated? (cs.map Char.toLower)).isSome = (ofHyphenated? cs).isSome := by
  have hgroups : (cs.map Char.toLower).splitOn '-' = (cs.splitOn '-').map (List.map Char.toLower) :=
    splitOn_map (fun _ => toLower_eq_hyphen_iff) cs
  rw [Bool.eq_iff_iff]
  simp [ofHyphenated?, hgroups, Option.isSome_iff_exists, isHex_map_toLower, Function.comp_def]

/-- The groups in which an identifier is written. -/
def grouped (digits : List Char) : List (List Char) :=
  [digits.take 8, (digits.drop 8).take 4, (digits.drop 12).take 4, (digits.drop 16).take 4,
    digits.drop 20]

theorem toList_text (guid : Guid) : guid.text.toList = ['-'].intercalate (grouped guid.digits) :=
  String.toList_ofList

theorem flatten_grouped (digits : List Char) : (grouped digits).flatten = digits := by
  have hjoin (n : Nat) : (digits.drop n).take 4 ++ digits.drop (n + 4) = digits.drop n := by
    rw [← List.drop_drop, List.take_append_drop]
  simp only [grouped, List.flatten_cons, List.flatten_nil, List.append_nil]
  rw [hjoin 16, hjoin 12, hjoin 8, List.take_append_drop]

theorem isGrouped_grouped {digits : List Char} (hlength : digits.length = 32)
    (hhex : AllHex digits) : IsGrouped (grouped digits) where
  lengths := by simp [grouped, hlength]
  hex := List.forall_mem_flatten.1 (by rwa [flatten_grouped])

/-- An identifier is read back from its hyphenated spelling. -/
theorem ofHyphenated?_text {digits : List Char} (h : Spelling cs digits) :
    ofHyphenated? (text ⟨digits.map Char.toLower⟩).toList = some ⟨digits.map Char.toLower⟩ := by
  have hgrouped := isGrouped_grouped ((List.length_map _).trans h.length_digits)
    h.allHex_digits.map_toLower
  refine ofHyphenated?_eq_some_iff.2 ⟨_, hgrouped, toList_text _, ?_⟩
  rw [flatten_grouped, map_toLower_map_toLower]

/-- A text that is hyphenated in another case spells an identifier. -/
theorem exists_spelling_of_map_toLower {digits ds : List Char} (h : Spelling ds digits)
    (hcs : cs.map Char.toLower = (text ⟨digits.map Char.toLower⟩).toList) :
    ∃ digits, Spelling cs digits := by
  have hread := isSome_ofHyphenated?_map_toLower cs
  rw [hcs, ofHyphenated?_text h, Option.isSome_some] at hread
  obtain ⟨guid, hguid⟩ := Option.isSome_iff_exists.1 hread.symm
  obtain ⟨groups, hgrouped, rfl, -⟩ := ofHyphenated?_eq_some_iff.1 hguid
  exact ⟨_, .hyphenated hgrouped⟩

end Guid

/-! ### Keys -/

section Keys

variable {text one other : String} {digits : List Char}

theorem projectKey_of_spelling (h : Spelling (Text.trim text).toList digits) :
    projectKey text = Guid.text ⟨digits.map Char.toLower⟩ := by
  rw [projectKey, Guid.ofChars?_eq_some_iff.2 ⟨digits, h, rfl⟩]

theorem projectKey_of_not_spelling (h : ∀ digits, ¬ Spelling (Text.trim text).toList digits) :
    projectKey text = .ofList ((Text.trim text).toList.map Char.toLower) := by
  rw [projectKey, Guid.ofChars?_eq_none_iff.2 h]

theorem forall_not_spells_iff : (∀ number, ¬ Spells text number) ↔
    ∀ digits, ¬ Spelling (Text.trim text).toList digits := by
  constructor
  · exact fun h digits hspelling => h _ ⟨digits, hspelling, rfl⟩
  · rintro h number ⟨digits, hspelling, -⟩
    exact h digits hspelling

/-- Identifiers have the same key exactly when they are the same number. -/
theorem projectKey_eq_iff_of_spelling {ds : List Char}
    (hone : Spelling (Text.trim one).toList digits)
    (hother : Spelling (Text.trim other).toList ds) :
    projectKey one = projectKey other ↔ numberOf digits = numberOf ds := by
  rw [projectKey_of_spelling hone, projectKey_of_spelling hother, ← map_toLower_eq_iff
    hone.allHex_digits hother.allHex_digits (hone.length_digits.trans hother.length_digits.symm)]
  constructor
  · intro h
    have hread := Guid.ofHyphenated?_text hone
    rw [h, Guid.ofHyphenated?_text hother] at hread
    exact (congrArg Guid.digits (Option.some.inj hread)).symm
  · intro h
    rw [h]

/-- A text that spells no identifier does not have the key of one that does. -/
theorem projectKey_ne (hone : Spelling (Text.trim one).toList digits)
    (hother : ∀ digits, ¬ Spelling (Text.trim other).toList digits) :
    projectKey one ≠ projectKey other := by
  intro h
  rw [projectKey_of_spelling hone, projectKey_of_not_spelling hother] at h
  obtain ⟨ds, hds⟩ := Guid.exists_spelling_of_map_toLower hone
    (by rw [h, String.toList_ofList] : (Text.trim other).toList.map Char.toLower = _)
  exact hother ds hds

/-- Texts have the same key exactly when they name the same project. -/
theorem projectKey_eq_iff : projectKey one = projectKey other ↔ SameProject one other := by
  constructor
  · intro h
    by_cases hone : ∃ digits, Spelling (Text.trim one).toList digits
    · obtain ⟨digits, hone⟩ := hone
      by_cases hother : ∃ ds, Spelling (Text.trim other).toList ds
      · obtain ⟨ds, hother⟩ := hother
        have hnumber := (projectKey_eq_iff_of_spelling hone hother).1 h
        exact .spelled (numberOf digits) ⟨digits, hone, rfl⟩ ⟨ds, hother, hnumber.symm⟩
      · exact absurd h (projectKey_ne hone (not_exists.1 hother))
    · rw [not_exists] at hone
      by_cases hother : ∃ ds, Spelling (Text.trim other).toList ds
      · obtain ⟨ds, hother⟩ := hother
        exact absurd h.symm (projectKey_ne hother hone)
      · rw [not_exists] at hother
        rw [projectKey_of_not_spelling hone, projectKey_of_not_spelling hother] at h
        exact .plain (forall_not_spells_iff.2 hone) (forall_not_spells_iff.2 hother)
          (String.ofList_injective h)
  · intro h
    cases h with
    | spelled number hone hother =>
        obtain ⟨digits, hone, rfl⟩ := hone
        obtain ⟨ds, hother, hnumber⟩ := hother
        exact (projectKey_eq_iff_of_spelling hone hother).2 hnumber.symm
    | plain hone hother h =>
        rw [projectKey_of_not_spelling (forall_not_spells_iff.1 hone),
          projectKey_of_not_spelling (forall_not_spells_iff.1 hother), h]

end Keys

end BuildAtlas.VisualStudio
