import BuildAtlas.Gn.Description
import BuildAtlas.Proofs.CompileFlags.Settings
import BuildAtlas.Proofs.FirstOccurrences

/-!
# BuildAtlas.Proofs.CompileFlags.Repeats

What dropping repeated words leaves of the flags in a list.

Repeats are dropped word by word, while a switch and its value are two words. A switch that loses
its value takes the word that follows instead, and a value that loses its switch is read as a flag
of its own. So a list says the same without its repeats where each flag is new in all its words, or
says nothing new and leaves behind only words that mean nothing by themselves (`RepeatsHarmless`).
The induction is on the flags as they are read (`readFlags`), with all that was read before them in
front.
-/

namespace BuildAtlas

namespace CompileFlags

/-- Two readings name the same directories and define the same texts. -/
structure SameSets (flags flags' : CompileFlags) : Prop where
  includeDirs : ∀ dir, dir ∈ flags.includeDirs ↔ dir ∈ flags'.includeDirs
  defines : ∀ text, text ∈ flags.defines ↔ text ∈ flags'.defines

/-! ### Flags of a list -/

/-- The flags of a list as they are read, each with its words: a switch with the word after it, and
any other word alone. -/
def readFlags : List String → List (List String)
  | [] => []
  | word :: words =>
    match Word.ofText word with
    | .awaiting _ =>
      match words with
      | [] => [[word]]
      | value :: words => [word, value] :: readFlags words
    | .setting _ | .ignored => [word] :: readFlags words

/-- A word that by itself takes no value, names no directory and defines nothing. -/
def Word.isIdle : Word → Bool
  | .setting (.cStandard _) | .setting (.cppStandard _) | .ignored => true
  | .setting (.includeDir _) | .setting (.define _) | .awaiting _ => false

/-- The words of a flag differ, and none of them stands before it. -/
def IsNew (seen flag : List String) : Prop :=
  flag.Nodup ∧ ∀ word ∈ flag, word ∉ seen

/-- What a flag says was said before it, and those of its words that do not stand before it mean
nothing by themselves. -/
def IsRepeat (seen flag : List String) : Prop :=
  (∀ dir ∈ (parse flag).includeDirs, dir ∈ (parse seen).includeDirs) ∧
  (∀ text ∈ (parse flag).defines, text ∈ (parse seen).defines) ∧
  ∀ word ∈ flag, word ∈ seen ∨ (Word.ofText word).isIdle = true

instance (seen flag : List String) : Decidable (IsNew seen flag) :=
  inferInstanceAs (Decidable (_ ∧ _))

instance (seen flag : List String) : Decidable (IsRepeat seen flag) :=
  inferInstanceAs (Decidable (_ ∧ _))

/-- Each flag is new or a repeat where it stands, after the words seen before. -/
def RepeatsHarmlessAfter (seen : List String) : List (List String) → Prop
  | [] => True
  | flag :: flags =>
    (IsNew seen flag ∨ IsRepeat seen flag) ∧ RepeatsHarmlessAfter (seen ++ flag) flags

instance decidableRepeatsHarmlessAfter : (seen : List String) → (flags : List (List String)) →
    Decidable (RepeatsHarmlessAfter seen flags)
  | _, [] => isTrue trivial
  | seen, flag :: flags =>
    let _ := decidableRepeatsHarmlessAfter (seen ++ flag) flags
    inferInstanceAs (Decidable (_ ∧ _))

/-- Each flag of a list is new in all its words, or says nothing new and leaves behind only words
that mean nothing by themselves. -/
def RepeatsHarmless (words : List String) : Prop :=
  RepeatsHarmlessAfter [] (readFlags words)

instance (words : List String) : Decidable (RepeatsHarmless words) :=
  inferInstanceAs (Decidable (RepeatsHarmlessAfter _ _))

/-! ### Dropping repeats -/

theorem complete_of_isIdle {words : List String}
    (h : ∀ word ∈ words, (Word.ofText word).isIdle = true) : Complete words := by
  induction words with
  | nil => exact complete_nil
  | cons word rest ih =>
      obtain ⟨hword, hrest⟩ := List.forall_mem_cons.1 h
      have hone : Complete [word] := by
        refine complete_singleton fun switch hswitch => ?_
        rw [hswitch] at hword
        exact nomatch hword
      exact hone.append (ih hrest)

/-- Words that mean nothing by themselves say nothing together. -/
theorem parse_of_isIdle {words : List String}
    (h : ∀ word ∈ words, (Word.ofText word).isIdle = true) :
    (parse words).includeDirs = [] ∧ (parse words).defines = [] := by
  rw [parse_eq]
  induction words with
  | nil => exact ⟨rfl, rfl⟩
  | cons word rest ih =>
      obtain ⟨hword, hrest⟩ := List.forall_mem_cons.1 h
      cases hmeaning : Word.ofText word with
      | setting setting =>
          rw [hmeaning] at hword
          rw [settings_of_setting hmeaning]
          cases setting with
          | includeDir dir => exact nomatch hword
          | define text => exact nomatch hword
          | cStandard version => exact ih hrest
          | cppStandard version => exact ih hrest
      | awaiting switch =>
          rw [hmeaning] at hword
          exact nomatch hword
      | ignored =>
          rw [settings_of_ignored hmeaning]
          exact ih hrest

/-- A flag that is a repeat leaves words behind that are read by themselves and say nothing. -/
theorem IsRepeat.exists_left {seen flag : List String} (h : IsRepeat seen flag) :
    ∃ left, (seen ++ flag).eraseDups = seen.eraseDups ++ left ∧ Complete left ∧
      (parse left).includeDirs = [] ∧ (parse left).defines = [] := by
  have hidle : ∀ word ∈ (flag.removeAll seen).eraseDups, (Word.ofText word).isIdle = true := by
    intro word hword
    obtain ⟨hflag, hseen⟩ := List.mem_filter.1 (List.mem_eraseDups.1 hword)
    have hnew : word ∉ seen := by simpa using hseen
    exact (h.2.2 word hflag).resolve_left hnew
  exact ⟨_, List.eraseDups_append, complete_of_isIdle hidle, parse_of_isIdle hidle⟩

/-- What is kept of some words says the same as they do, and both are read to their end. -/
structure KeepsSets (seen : List String) : Prop where
  complete : Complete seen
  complete_kept : Complete seen.eraseDups
  sameSets : SameSets (parse seen.eraseDups) (parse seen)

theorem keepsSets_nil : KeepsSets [] :=
  ⟨complete_nil, complete_nil, fun _ => Iff.rfl, fun _ => Iff.rfl⟩

/-- One more flag that is new is kept as a whole, and what is kept of a repeat adds nothing. -/
theorem KeepsSets.sameSets_append {seen flag : List String} (h : KeepsSets seen)
    (hflag : IsNew seen flag ∨ IsRepeat seen flag) :
    SameSets (parse (seen ++ flag).eraseDups) (parse (seen ++ flag)) := by
  have hseen := h.complete.parse_append flag
  rcases hflag with ⟨hnodup, hnew⟩ | hrepeat
  · have hkept := h.complete_kept.parse_append flag
    rw [eraseDups_append_of_new hnodup hnew]
    constructor
    · intro dir
      rw [hseen.1, hkept.1, List.mem_append, List.mem_append, h.sameSets.includeDirs]
    · intro text
      rw [hseen.2, hkept.2, List.mem_append, List.mem_append, h.sameSets.defines]
  · obtain ⟨left, herase, -, hdirs, htexts⟩ := hrepeat.exists_left
    have hkept := h.complete_kept.parse_append left
    rw [herase]
    constructor
    · intro dir
      rw [hseen.1, hkept.1, hdirs, List.append_nil, List.mem_append, h.sameSets.includeDirs]
      exact ⟨.inl, fun hdir => hdir.elim id (hrepeat.1 dir)⟩
    · intro text
      rw [hseen.2, hkept.2, htexts, List.append_nil, List.mem_append, h.sameSets.defines]
      exact ⟨.inl, fun htext => htext.elim id (hrepeat.2.1 text)⟩

theorem KeepsSets.append {seen flag : List String} (h : KeepsSets seen) (hcomplete : Complete flag)
    (hflag : IsNew seen flag ∨ IsRepeat seen flag) : KeepsSets (seen ++ flag) where
  complete := h.complete.append hcomplete
  complete_kept := by
    rcases hflag with ⟨hnodup, hnew⟩ | hrepeat
    · rw [eraseDups_append_of_new hnodup hnew]
      exact h.complete_kept.append hcomplete
    · obtain ⟨left, herase, hleft, -⟩ := hrepeat.exists_left
      rw [herase]
      exact h.complete_kept.append hleft
  sameSets := h.sameSets_append hflag

/-- Flags that are new or repeats keep what was said before them and add what they say. A switch
without its value stands last, so nothing is read after it. -/
theorem KeepsSets.sameSets_readFlags {seen words : List String} (h : KeepsSets seen)
    (hwords : RepeatsHarmlessAfter seen (readFlags words)) :
    SameSets (parse (seen ++ words).eraseDups) (parse (seen ++ words)) := by
  fun_induction readFlags words generalizing seen with
  | case1 =>
      rw [List.append_nil]
      exact h.sameSets
  | case2 word switch hword => exact h.sameSets_append hwords.1
  | case3 word switch hword value rest ih =>
      have hnext := h.append (complete_pair hword value) hwords.1
      have hsame := ih hnext hwords.2
      rw [List.append_assoc] at hsame
      exact hsame
  | case4 word rest setting hword ih =>
      have hnext := h.append (complete_singleton (by simp [hword])) hwords.1
      have hsame := ih hnext hwords.2
      rw [List.append_assoc] at hsame
      exact hsame
  | case5 word rest hword ih =>
      have hnext := h.append (complete_singleton (by simp [hword])) hwords.1
      have hsame := ih hnext hwords.2
      rw [List.append_assoc] at hsame
      exact hsame

end CompileFlags

/-! ### Targets -/

namespace Gn.Target

open CompileFlags

/-- The flags of all compilers, with their repeats. -/
def flags (target : Target) : List String :=
  target.cflags ++ target.cflagsC ++ target.cflagsCc ++ target.cflagsObjc ++ target.cflagsObjcc

/-- The flags of a target name the same directories and define the same texts without their repeats,
if each flag is new as a whole or is a repeat that leaves nothing behind that could be misread. -/
theorem sameSets_compileFlags (target : Target) (h : RepeatsHarmless target.flags) :
    SameSets (parse target.compileFlags) (parse target.flags) :=
  keepsSets_nil.sameSets_readFlags h

/-- A target whose compilers share flags of two words, one of them in another spelling. -/
def sharedFlags : Target where
  cflags := ["-isystem", "/sdk", "-DX", "-I", "gen"]
  cflagsC := ["-DX", "-isystem", "/sdk", "-std=gnu11", "-Isrc"]
  cflagsCc := ["-I", "gen", "-I", "src", "-DY", "-std=c++17", "-D"]

theorem sameSets_compileFlags_sharedFlags :
    RepeatsHarmless sharedFlags.flags ∧
    SameSets (parse sharedFlags.compileFlags) (parse sharedFlags.flags) :=
  ⟨by decide, sameSets_compileFlags sharedFlags (by decide)⟩

/-- A target whose compilers share switches, each with a value of its own. -/
def sharedSwitches : Target where
  cflags := ["-I", "a", "-D", "A"]
  cflagsC := ["-I", "b", "-D", "B"]

/-- A switch that is dropped before its second value leaves the value without meaning. -/
theorem not_sameSets_sharedSwitches :
    ¬(∀ dir, dir ∈ (parse sharedSwitches.compileFlags).includeDirs
      ↔ dir ∈ (parse sharedSwitches.flags).includeDirs) ∧
    ¬(∀ text, text ∈ (parse sharedSwitches.compileFlags).defines
      ↔ text ∈ (parse sharedSwitches.flags).defines) := by
  constructor
  · intro h
    exact absurd ((h "b").2 (by decide)) (by decide)
  · intro h
    exact absurd ((h "B").2 (by decide)) (by decide)

end Gn.Target

end BuildAtlas
