import BuildAtlas.CompileFlags

/-!
# BuildAtlas.Proofs.CompileFlags.Settings

What a flag list says, by the settings that it makes.

Directories and macros are those of the settings, in their order, and a standard is the last one of
its language (`parse_eq`). A list is read from left to right, so one whose last switch has its value
is read to its end before anything that follows; `Complete` says this of a list, and such lists can
be read one after the other (`Complete.append`).
-/

namespace BuildAtlas.CompileFlags

/-! ### Kinds of settings -/

namespace Setting

/-- The directory of a setting that names one. -/
def includeDir? : Setting → Option String
  | .includeDir dir => some dir
  | _ => none

/-- The text of a setting that defines something. -/
def define? : Setting → Option String
  | .define text => some text
  | _ => none

/-- The version of a setting for the C language. -/
def cVersion? : Setting → Option String
  | .cStandard version => some version
  | _ => none

/-- The version of a setting for the C++ language. -/
def cppVersion? : Setting → Option String
  | .cppStandard version => some version
  | _ => none

end Setting

/-- Settings are collected by their kind: lists grow at their end, and a version stands until the
next one for its language. -/
theorem foldl_add_eq (made : List Setting) (flags : CompileFlags) :
    made.foldl add flags =
      { includeDirs := flags.includeDirs ++ made.filterMap Setting.includeDir?
        defines := flags.defines ++ made.filterMap Setting.define?
        cStandard := (made.filterMap Setting.cVersion?).getLast?.getD flags.cStandard
        cppStandard := (made.filterMap Setting.cppVersion?).getLast?.getD flags.cppStandard } := by
  induction made generalizing flags with
  | nil => simp
  | cons setting rest ih =>
      rw [List.foldl_cons, ih]
      simp only [List.filterMap_cons]
      cases setting <;> simp [add, Setting.includeDir?, Setting.define?, Setting.cVersion?,
        Setting.cppVersion?, List.getLast?_cons]

theorem parse_eq (words : List String) :
    parse words =
      { includeDirs := (settings words).filterMap Setting.includeDir?
        defines := (settings words).filterMap Setting.define?
        cStandard := ((settings words).filterMap Setting.cVersion?).getLast?.getD "99"
        cppStandard := ((settings words).filterMap Setting.cppVersion?).getLast?.getD "11" } := by
  rw [parse, foldl_add_eq]
  rfl

/-! ### Reading words -/

theorem settings_of_setting {word : String} {setting : Setting}
    (h : Word.ofText word = .setting setting) (rest : List String) :
    settings (word :: rest) = setting :: settings rest := by
  rw [settings, h]

theorem settings_of_ignored {word : String} (h : Word.ofText word = .ignored)
    (rest : List String) : settings (word :: rest) = settings rest := by
  rw [settings, h]

theorem settings_of_awaiting {word : String} {switch : Switch}
    (h : Word.ofText word = .awaiting switch) (value : String) (rest : List String) :
    settings (word :: value :: rest) = switch.apply value :: settings rest := by
  rw [settings, h]

/-- A switch at the end says nothing. -/
theorem settings_of_awaiting_last {word : String} {switch : Switch}
    (h : Word.ofText word = .awaiting switch) : settings [word] = [] := by
  rw [settings, h]

/-! ### Lists read to their end -/

/-- The words are read to their end, whatever follows them: no switch at their end takes its value
from there. -/
def Complete (words : List String) : Prop :=
  ∀ rest, settings (words ++ rest) = settings words ++ settings rest

theorem complete_nil : Complete [] :=
  fun _ => rfl

theorem Complete.append {words words' : List String} (h : Complete words) (h' : Complete words') :
    Complete (words ++ words') := by
  intro rest
  rw [List.append_assoc, h, h', h, List.append_assoc]

/-- A word that is no switch is read by itself. -/
theorem complete_singleton {word : String} (h : ∀ switch, Word.ofText word ≠ .awaiting switch) :
    Complete [word] := by
  intro rest
  cases hword : Word.ofText word with
  | setting setting =>
      rw [List.singleton_append, settings_of_setting hword, settings_of_setting hword]
      rfl
  | awaiting switch => exact absurd hword (h switch)
  | ignored =>
      rw [List.singleton_append, settings_of_ignored hword, settings_of_ignored hword]
      rfl

/-- A switch is read together with its value. -/
theorem complete_pair {word : String} {switch : Switch} (h : Word.ofText word = .awaiting switch)
    (value : String) : Complete [word, value] := by
  intro rest
  rw [List.cons_append, List.singleton_append, settings_of_awaiting h, settings_of_awaiting h]
  rfl

theorem Complete.parse_append {words : List String} (h : Complete words) (rest : List String) :
    (parse (words ++ rest)).includeDirs = (parse words).includeDirs ++ (parse rest).includeDirs ∧
    (parse (words ++ rest)).defines = (parse words).defines ++ (parse rest).defines := by
  simp only [parse_eq, h rest, List.filterMap_append, and_self]

end BuildAtlas.CompileFlags
