import BuildAtlas.CommandLine.Arguments
import BuildAtlas.Proofs.Text

/-!
# BuildAtlas.Proofs.CommandLine.Arguments

A configuration can be named in front of any arguments that name none.

Options may be given once, and what is settled stays settled. So where the arguments of a run end
without a configuration, none of its options was one (`parseAfter_withConfiguration`), and one more
in front of them is read as it stands and changes nothing else (`parse_config_cons`).
-/

namespace BuildAtlas.CommandLine

namespace Options

/-- The options with a configuration settled before the others. -/
def withConfiguration (options : Options) (name : String) : Options :=
  { options with settled := (.configuration, name) :: options.settled }

theorem eq_of_add {options after : Options} {option : OptionName} {value : String}
    (h : options.add option value = .ok after) :
    after = { options with settled := options.settled ++ [(option, value)] } := by
  unfold add at h
  split at h
  · exact nomatch h
  · exact (Except.ok.inj h).symm

/-- What is settled stays settled, and so does the option that is added. -/
theorem lookup_of_add {options after : Options} {option other : OptionName} {value : String}
    (h : options.add option value = .ok after) (hnone : after.settled.lookup other = none) :
    options.settled.lookup other = none ∧ other ≠ option := by
  rw [eq_of_add h, List.lookup_append, Option.or_eq_none_iff] at hnone
  refine ⟨hnone.1, fun e => ?_⟩
  simp [e] at hnone

/-- Another option can be added as well behind the configuration. -/
theorem add_withConfiguration {options after : Options} {option : OptionName} {value : String}
    (h : options.add option value = .ok after) (hne : .configuration ≠ option) (name : String) :
    (options.withConfiguration name).add option value = .ok (after.withConfiguration name) := by
  have hlookup : (options.withConfiguration name).settled.lookup option
      = options.settled.lookup option := by
    rw [withConfiguration, List.lookup_cons, beq_false_of_ne hne.symm]
  have hafter := eq_of_add h
  unfold add at h ⊢
  rw [hlookup]
  split at h
  · exact nomatch h
  · rename_i hgiven
    rw [if_neg hgiven, hafter]
    rfl

theorem lookup_of_settle {options after : Options} {other : OptionName}
    (h : options.settle = .ok after) (hnone : after.settled.lookup other = none) :
    options.settled.lookup other = none := by
  unfold settle at h
  split at h
  · exact (Except.ok.inj h) ▸ hnone
  · exact nomatch h
  · exact (lookup_of_add h hnone).1

theorem settle_withConfiguration {options after : Options} (h : options.settle = .ok after)
    (hnone : after.settled.lookup .configuration = none) (name : String) :
    (options.withConfiguration name).settle = .ok (after.withConfiguration name) := by
  unfold settle at h ⊢
  split at h
  · rename_i hpending
    obtain rfl := Except.ok.inj h
    simp [withConfiguration, hpending]
  · exact nomatch h
  · rename_i option value hpending
    have hadd := add_withConfiguration h (lookup_of_add h hnone).2 name
    simp only [withConfiguration, hpending] at hadd ⊢
    exact hadd

end Options

theorem eq_ok_of_bind {α β ε : Type} {x : Except ε α} {f : α → Except ε β} {b : β}
    (h : x >>= f = .ok b) : ∃ a, x = .ok a ∧ f a = .ok b := by
  cases x with
  | error e => exact nomatch h
  | ok a => exact ⟨a, rfl, h⟩

/-- What the first argument can be of arguments that are read: an option with its value or without,
the value of the option before it, or a command. -/
theorem parseAfter_cases {options : Options} {argument : String} {rest : List String}
    {parsed : Arguments} (h : parseAfter options (argument :: rest) = .ok parsed) :
    (∃ name option value settled after, Shape.of argument = .long name (some value) ∧
      OptionName.ofText? name = some option ∧ options.settle = .ok settled ∧
      settled.add option value = .ok after ∧ parseAfter after rest = .ok parsed) ∨
    (∃ name option settled, Shape.of argument = .long name none ∧
      OptionName.ofText? name = some option ∧ options.settle = .ok settled ∧
      parseAfter { settled with pending := some (option, none) } rest = .ok parsed) ∨
    (Shape.of argument = .word ∧ options.isAwaiting = true ∧
      parseAfter (options.fill argument) rest = .ok parsed) ∨
    (∃ wanted settled, Shape.of argument = .word ∧ options.isAwaiting = false ∧
      command argument rest = .ok wanted ∧ options.settle = .ok settled ∧
      parsed =
        { root := settled.settled.lookup .root
          configuration := settled.settled.lookup .configuration
          msbuild := settled.settled.lookup .msbuild
          logLevel := settled.settled.lookup .logLevel
          logFile := settled.settled.lookup .logFile
          command := wanted }) := by
  unfold parseAfter at h
  split at h
  · exact nomatch h
  · rename_i name value hshape
    split at h
    · rename_i option value hoption
      obtain ⟨settled, hsettled, hnext⟩ := eq_ok_of_bind h
      obtain ⟨after, hadd, hrest⟩ := eq_ok_of_bind hnext
      exact .inl ⟨name, option, value, settled, after, hshape, hoption, hsettled, hadd, hrest⟩
    · rename_i option hoption
      obtain ⟨settled, hsettled, hrest⟩ := eq_ok_of_bind h
      exact .inr (.inl ⟨name, option, settled, hshape, hoption, hsettled, hrest⟩)
    · split at h
      · obtain ⟨-, -, hthrow⟩ := eq_ok_of_bind h
        exact nomatch hthrow
      · exact nomatch h
    · exact nomatch h
  · split at h
    · obtain ⟨-, -, hthrow⟩ := eq_ok_of_bind h
      exact nomatch hthrow
    · exact nomatch h
  · rename_i hshape
    split at h
    · rename_i hawaiting
      exact .inr (.inr (.inl ⟨hshape, hawaiting, h⟩))
    · rename_i hawaiting
      obtain ⟨wanted, hwanted, hrest⟩ := eq_ok_of_bind h
      obtain ⟨settled, hsettled, hparsed⟩ := eq_ok_of_bind hrest
      exact .inr (.inr (.inr ⟨wanted, settled, hshape, Bool.eq_false_iff.2 hawaiting, hwanted,
        hsettled, (Except.ok.inj hparsed).symm⟩))

/-- Arguments that name no configuration are read in the same way behind one. The induction keeps
with it that no option read so far is a configuration. -/
theorem parseAfter_withConfiguration {options : Options} {arguments : List String}
    {parsed : Arguments} (h : parseAfter options arguments = .ok parsed)
    (hnone : parsed.configuration = none) (name : String) :
    options.settled.lookup .configuration = none ∧
    parseAfter (options.withConfiguration name) arguments
      = .ok { parsed with configuration := some name } := by
  induction arguments generalizing options with
  | nil => exact nomatch h
  | cons argument rest ih =>
      rcases parseAfter_cases h with
        ⟨text, option, value, settled, after, hshape, hoption, hsettle, hadd, hrest⟩ |
        ⟨text, option, settled, hshape, hoption, hsettle, hrest⟩ |
        ⟨hshape, hawaiting, hrest⟩ |
        ⟨wanted, settled, hshape, hawaiting, hwanted, hsettle, rfl⟩
      · obtain ⟨hafter, hread⟩ := ih hrest
        obtain ⟨hsettled, hne⟩ := Options.lookup_of_add hadd hafter
        refine ⟨Options.lookup_of_settle hsettle hsettled, ?_⟩
        simp only [parseAfter, hshape, hoption, Options.settle_withConfiguration hsettle hsettled,
          bind, Except.bind, Options.add_withConfiguration hadd hne, hread]
      · obtain ⟨hsettled, hread⟩ := ih hrest
        refine ⟨Options.lookup_of_settle hsettle hsettled, ?_⟩
        simp only [parseAfter, hshape, hoption, Options.settle_withConfiguration hsettle hsettled,
          bind, Except.bind]
        exact hread
      · obtain ⟨hsettled, hread⟩ := ih hrest
        refine ⟨hsettled, ?_⟩
        have hstill : (options.withConfiguration name).isAwaiting = true := hawaiting
        simp only [parseAfter, hshape, hstill, ↓reduceIte]
        exact hread
      · refine ⟨Options.lookup_of_settle hsettle hnone, ?_⟩
        have hstill : (options.withConfiguration name).isAwaiting = false := hawaiting
        simp only [parseAfter, hshape, hstill, hwanted, bind, Except.bind,
          Options.settle_withConfiguration hsettle hnone]
        rfl

/-- The argument that names a configuration. -/
def configurationArgument (name : String) : String :=
  "--config=" ++ name

theorem shape_configurationArgument (name : String) :
    Shape.of (configurationArgument name) = .long "config" (some name) := by
  have hcut : Text.breakOn? ['='] (['c', 'o', 'n', 'f', 'i', 'g'] ++ '=' :: name.toList)
      = some (['c', 'o', 'n', 'f', 'i', 'g'], name.toList) :=
    Text.breakOn?_singleton_eq_some_iff.2 ⟨rfl, by decide⟩
  have hlist : (configurationArgument name).toList
      = '-' :: '-' :: (['c', 'o', 'n', 'f', 'i', 'g'] ++ '=' :: name.toList) := by
    simp [configurationArgument]
  rw [Shape.of, hlist]
  simp only [List.cons_append] at hcut ⊢
  simp only [hcut, String.ofList_toList]

/-- A configuration can be named in front of any arguments that name none. -/
theorem parse_config_cons {arguments : List String} {parsed : Arguments}
    (h : parse arguments = .ok parsed) (hnone : parsed.configuration = none) (name : String) :
    parse (configurationArgument name :: arguments)
      = .ok { parsed with configuration := some name } := by
  have hread := (parseAfter_withConfiguration h hnone name).2
  simp only [parse, parseAfter, shape_configurationArgument]
  exact hread

end BuildAtlas.CommandLine
