import BuildAtlas.CommandLine
import BuildAtlas.Proofs.CommandLine.Arguments
import BuildAtlas.Proofs.RoundTrip
import BuildAtlas.Proofs.Workspace.Documents
import BuildAtlas.Proofs.Workspace.LoggedScan

/-!
# BuildAtlas.Proofs.CommandLine.Outcome

How a run ends, and what it prints.

A run whose arguments are read and whose log is opened works with one workspace: what the scan of
its root finds, or an empty one where the scan fails (`Scans`). From there on the outcome is told by
this workspace, the wanted configuration and the command alone (`Answers`), and the time of the
workspace has no part in it. A fault comes before anything is printed, and the first configuration
is the one that a scan makes active, so wanting it is the same as wanting none, also at another time
as long as the scan finds the same then. It does where the log is not read (`Scans.foundAt`).
-/

namespace BuildAtlas

/-- The workspace with another configuration active, if one is wanted. -/
def Workspace.activating (workspace : Workspace) : Option String → Workspace
  | none => workspace
  | some name => { workspace with selection := { workspace.selection with active := name } }

@[simp] theorem Workspace.projects_activating (workspace : Workspace) (wanted : Option String) :
    (workspace.activating wanted).projects = workspace.projects := by
  cases wanted <;> rfl

namespace CommandLine

/-! ### Specification -/

/-- The workspace that a run works with: what a scan of its root finds while the log is written, or
an empty one where the scan fails. -/
def Scans (host : Host) (log : Log) (arguments : Arguments) (workspace : Workspace) : Prop :=
  let settings := (ImportSettings.ofEnvironment host.environment).withMsbuild arguments.msbuild
  let root := rootOf log.tree arguments
  let started := log.note (startRecords settings root)
  let found := Workspace.scanLogged started settings root
  found = .ok workspace ∨ (∃ e, found = .error e) ∧ workspace = .empty root started.clock.now

/-- The text is the JSON of the value in lines, with a line end behind it, and reading it gives the
value back. -/
structure Shows {α : Type} (codec : Json.Codec α) (a : α) (text : String) : Prop where
  text_eq : text = codec.encode .pretty a ++ "\n"
  decode_eq : codec.decode text = .ok a

/-- The text of the document that a command asks for. -/
inductive Prints (workspace : Workspace) : Command → String → Prop
  | projects {output : String} (h : Shows (.list Project.codec) workspace.projects output) :
      Prints workspace .projects output
  | configurations {output : String}
      (h : Shows configurationsCodec (workspace.active, workspace.configurations) output) :
      Prints workspace .configurations output
  | tasks {output : String} (h : Shows TasksDocument.codec workspace.tasks output) :
      Prints workspace .tasks output
  | launch {output : String} (h : Shows LaunchDocument.codec workspace.launch output) :
      Prints workspace .launch output
  /-- Of the projects with one full name the first is described. -/
  | properties {fullName output : String} {project : Project}
      (hproject : workspace.projects.find? (·.fullName == fullName) = some project)
      (h : Shows PropertiesDocument.codec (project.properties workspace.active) output) :
      Prints workspace (.properties fullName) output

/-- What a run does with a workspace when a configuration and a document are asked for. -/
structure Answers (workspace : Workspace) (wanted : Option String) (command : Command)
    (outcome : Outcome) : Prop where
  /-- It ends with 2 if the wanted configuration is none of the workspace, -/
  unknown_iff : outcome.exitCode = 2 ↔ ∃ name, wanted = some name ∧ name ∉ workspace.configurations
  /-- otherwise with 1 if the project that is asked for is none of the workspace. -/
  missing_iff : outcome.exitCode = 1 ↔
    (∀ name, wanted = some name → name ∈ workspace.configurations) ∧
    ∃ fullName, command = .properties fullName ∧
      ∀ p ∈ workspace.projects, p.fullName ≠ fullName
  /-- In both cases nothing is printed. -/
  output_eq : outcome.exitCode ≠ 0 → outcome.output = ""
  /-- In all others it ends with 0 and prints the document, with the wanted configuration active. -/
  prints : outcome.exitCode ≠ 2 → outcome.exitCode ≠ 1 →
    outcome.exitCode = 0 ∧ Prints (workspace.activating wanted) command outcome.output

/-! ### Scans -/

section Scans

variable {host : Host} {log : Log} {arguments : Arguments} {workspace : Workspace}

theorem scans_scanned (host : Host) (log : Log) (arguments : Arguments) :
    Scans host log arguments (scanned host log arguments).1 := by
  simp only [Scans, scanned]
  split
  · rename_i workspace hscan
    exact .inl hscan
  · rename_i e hscan
    exact .inr ⟨⟨e, hscan⟩, rfl⟩

/-- A run works with one workspace only. -/
theorem Scans.eq_scanned (h : Scans host log arguments workspace) :
    workspace = (scanned host log arguments).1 := by
  rcases h with hscan | ⟨⟨e, hscan⟩, hempty⟩
  · simp only [scanned, hscan]
  · simp only [scanned, hscan, hempty]

/-- Where there are configurations, no fault is reported. -/
theorem Scans.scanned_eq (h : Scans host log arguments workspace)
    (hne : workspace.configurations ≠ []) : scanned host log arguments = (workspace, "") := by
  rcases h with hscan | ⟨-, hempty⟩
  · simp only [scanned, hscan]
  · exact absurd (congrArg Workspace.configurations hempty) hne

/-- A log that is not read has no part in what is found. -/
theorem Scans.eq_of_isApart (h : Scans host log arguments workspace)
    (hapart : log.IsApart (rootOf log.tree arguments)) :
    ∃ now, workspace = .scanOrEmpty
      ((ImportSettings.ofEnvironment host.environment).withMsbuild arguments.msbuild) log.tree
      (rootOf log.tree arguments) now := by
  have hsettings : ((ImportSettings.ofEnvironment host.environment).withMsbuild
      arguments.msbuild).systemIncludes = false := by
    rw [ImportSettings.withMsbuild, ImportSettings.ofEnvironment]
    split <;> rfl
  simp only [Scans] at h
  generalize (ImportSettings.ofEnvironment host.environment).withMsbuild arguments.msbuild
    = settings at h hsettings ⊢
  generalize rootOf log.tree arguments = root at h hapart ⊢
  obtain ⟨now, hscan⟩ := Workspace.scanLogged_eq
    (log.writesIn_self.note (startRecords settings root)) hsettings hapart
  rw [hscan] at h
  rcases h with hfound | ⟨⟨e, herror⟩, rfl⟩
  · exact ⟨now, by rw [Workspace.scanOrEmpty, hfound]; rfl⟩
  · refine ⟨(log.note (startRecords settings root)).clock.now, ?_⟩
    rw [Workspace.scanOrEmpty, Workspace.scan_foundAt settings log.tree root now, herror]
    rfl

/-- Nor has the time then: a run under another clock works with the same workspace, but for the time
of it. -/
theorem Scans.foundAt (h : Scans host log arguments workspace)
    (hapart : log.IsApart (rootOf log.tree arguments)) (clock : Clock) :
    ∃ now, Scans { host with clock } { log with clock } arguments (workspace.foundAt now) := by
  have hother := scans_scanned { host with clock } { log with clock } arguments
  obtain ⟨now, hnow⟩ := h.eq_of_isApart hapart
  obtain ⟨later, hlater⟩ := hother.eq_of_isApart hapart
  refine ⟨later, ?_⟩
  rw [hnow, ← Workspace.scanOrEmpty_foundAt]
  exact hlater ▸ hother

/-- The names that can be selected are the configurations, the first of them is active, and only
solutions have any. -/
theorem Scans.selection_eq (h : Scans host log arguments workspace) :
    workspace.selection = .ofNames workspace.configurations ∧
    (workspace.format ≠ some .visualStudio → workspace.configurations = []) := by
  have hcases : ∃ now, workspace = .empty (rootOf log.tree arguments) now ∨
      ∃ format found, workspace = .ofImported (rootOf log.tree arguments) format found now ∧
        ∀ one ∈ found, Imported.Fits format one := by
    rcases h with hscan | ⟨-, hempty⟩
    · exact Workspace.scanLogged_cases hscan
    · exact ⟨_, .inl hempty⟩
  obtain ⟨now, rfl | ⟨format, found, rfl, hfits⟩⟩ := hcases
  · exact ⟨rfl, fun _ => rfl⟩
  · refine ⟨rfl, fun hformat => ?_⟩
    have hkeys : (Workspace.ofImported (rootOf log.tree arguments) format found now).KeysFit :=
      (Workspace.consistent_ofImported hfits).keysFit
    cases format with
    | gn => exact hkeys.1
    | visualStudio => exact absurd rfl hformat
    | codeBlocks => exact hkeys.1

end Scans

/-! ### Documents -/

theorem configurationsCodec_lawful : configurationsCodec.Lawful :=
  Json.Codec.record_lawful (by simp) fun _ => rfl

theorem shows_printed {α : Type} {codec : Json.Codec α} (h : codec.Lawful) (a : α) :
    Shows codec a (printed codec a) :=
  ⟨rfl, (h.roundTrips a).2⟩

/-- The documents do not show the time of the workspace. -/
theorem document_foundAt (workspace : Workspace) (now : Time) (command : Command) :
    document (workspace.foundAt now) command = document workspace command := by
  cases command <;> rfl

/-- A document is printed, or a project is asked for that the workspace does not have. -/
theorem document_cases (workspace : Workspace) (command : Command) :
    (∃ output, document workspace command = .ok output ∧ Prints workspace command output ∧
      ∀ fullName, command = .properties fullName →
        ∃ p ∈ workspace.projects, p.fullName = fullName) ∨
    ∃ fullName, command = .properties fullName ∧
      document workspace command = .error (.projectNotFound fullName) ∧
      ∀ p ∈ workspace.projects, p.fullName ≠ fullName := by
  cases command with
  | projects =>
      have hshows := shows_printed (Json.Codec.list_lawful Project.codec_lawful) workspace.projects
      exact .inl ⟨_, rfl, .projects hshows, nofun⟩
  | configurations =>
      have hshows := shows_printed configurationsCodec_lawful
        (workspace.active, workspace.configurations)
      exact .inl ⟨_, rfl, .configurations hshows, nofun⟩
  | tasks =>
      have hshows := shows_printed TasksDocument.codec_lawful workspace.tasks
      exact .inl ⟨_, rfl, .tasks hshows, nofun⟩
  | launch =>
      have hshows := shows_printed LaunchDocument.codec_lawful workspace.launch
      exact .inl ⟨_, rfl, .launch hshows, nofun⟩
  | properties fullName =>
      cases hfind : workspace.project? fullName with
      | none =>
          refine .inr ⟨fullName, rfl, ?_, fun p hp => ?_⟩
          · rw [document, Workspace.properties, hfind]
            rfl
          · simpa using List.find?_eq_none.1 hfind p hp
      | some project =>
          have hshows := shows_printed PropertiesDocument.codec_lawful
            (project.properties workspace.active)
          refine .inl ⟨_, ?_, .properties hfind hshows, fun other hother => ?_⟩
          · rw [document, Workspace.properties, hfind]
            rfl
          · obtain rfl := Command.properties.inj hother
            exact ⟨project, List.mem_of_find?_eq_some hfind, by
              simpa using List.find?_some hfind⟩

/-! ### Runs -/

/-- A wanted configuration becomes active if the workspace has it. -/
theorem selected_cases {workspace : Workspace}
    (havailable : workspace.selection.available = workspace.configurations)
    (wanted : Option String) :
    (selected workspace wanted = .ok (workspace.activating wanted) ∧
      ∀ name, wanted = some name → name ∈ workspace.configurations) ∨
    ∃ name, wanted = some name ∧ name ∉ workspace.configurations ∧
      selected workspace wanted = .error (.unknownConfiguration name) := by
  cases wanted with
  | none => exact .inl ⟨rfl, nofun⟩
  | some name =>
      rcases workspace.select_cases name with ⟨hmem, hselect⟩ | ⟨hmem, hselect⟩
      · refine .inl ⟨hselect, fun other hother => ?_⟩
        rw [← havailable, ← Option.some.inj hother]
        exact hmem
      · exact .inr ⟨name, rfl, havailable ▸ hmem, hselect⟩

/-- A run does with its workspace what its arguments ask for. -/
theorem answers_runWith {host : Host} {arguments : Arguments} {log : Log}
    (hlog : Log.ofSettings (logSettings host arguments) host.clock host.tree = .ok log) :
    Answers (scanned host log arguments).1 arguments.configuration arguments.command
      (runWith host arguments) := by
  have havailable : (scanned host log arguments).1.selection.available
      = (scanned host log arguments).1.configurations := by
    rw [(scans_scanned host log arguments).selection_eq.1]
    rfl
  simp only [runWith, hlog]
  generalize scanned host log arguments = result at havailable ⊢
  obtain ⟨workspace, faults⟩ := result
  rcases selected_cases havailable arguments.configuration with
    ⟨hselected, hknown⟩ | ⟨name, hwanted, hunknown, hselected⟩
  · have hnone : ¬∃ name, arguments.configuration = some name ∧
        name ∉ workspace.configurations :=
      fun ⟨name, hname, hmem⟩ => hmem (hknown name hname)
    rcases document_cases (workspace.activating arguments.configuration) arguments.command with
      ⟨output, hdocument, hprints, hhas⟩ | ⟨fullName, hcommand, hdocument, hmissing⟩
    · simp only [hselected, hdocument]
      refine ⟨⟨nofun, fun h => absurd h hnone⟩, ⟨nofun, ?_⟩, fun h => absurd rfl h,
        fun _ _ => ⟨rfl, hprints⟩⟩
      rintro ⟨-, fullName, hcommand, hmissing⟩
      obtain ⟨p, hp, hname⟩ := hhas fullName hcommand
      rw [Workspace.projects_activating] at hp
      exact absurd hname (hmissing p hp)
    · rw [Workspace.projects_activating] at hmissing
      simp only [hselected, hdocument]
      exact ⟨⟨nofun, fun h => absurd h hnone⟩, ⟨fun _ => ⟨hknown, fullName, hcommand, hmissing⟩,
        fun _ => rfl⟩, fun _ => rfl, fun _ h => absurd rfl h⟩
  · simp only [hselected]
    exact ⟨⟨fun _ => ⟨name, hwanted, hunknown⟩, fun _ => rfl⟩,
      ⟨nofun, fun h => absurd (h.1 name hwanted) hunknown⟩, fun _ => rfl, fun h => absurd rfl h⟩

/-- A log is opened alike under every clock. -/
theorem ofSettings_clock {settings : LogSettings} {clock : Clock} {tree : FileTree} {log : Log}
    (h : Log.ofSettings settings clock tree = .ok log) (clock' : Clock) :
    Log.ofSettings settings clock' tree = .ok { log with clock := clock' } := by
  unfold Log.ofSettings at h ⊢
  cases hfile : settings.file with
  | none =>
      simp only [hfile] at h ⊢
      obtain rfl := Except.ok.inj h
      rfl
  | some path =>
      simp only [hfile] at h ⊢
      cases hopen : tree.openFile path with
      | error fault => simp [hopen, bind, Except.bind] at h
      | ok opened =>
          rw [hopen] at h
          obtain rfl := Except.ok.inj h
          rfl

/-- The first configuration of a workspace is active, so nothing changes when it is selected. -/
theorem selected_first {workspace : Workspace} {first : String} {rest : List String}
    (hselection : workspace.selection = .ofNames workspace.configurations)
    (hfirst : workspace.configurations = first :: rest) :
    selected workspace (some first) = .ok workspace := by
  have hmem : first ∈ workspace.selection.available := by
    rw [hselection, hfirst]
    exact List.mem_cons_self
  have hactive : { workspace.selection with active := first } = workspace.selection := by
    rw [hselection, hfirst]
    rfl
  rw [selected, Workspace.select_of_mem hmem]
  exact congrArg (fun chosen => Except.ok { workspace with selection := chosen }) hactive

/-- Wanting the first configuration is the same as wanting none, also under another clock if the
scan finds the same then. -/
theorem runWith_first {host : Host} {arguments : Arguments} {log : Log} {workspace : Workspace}
    (hlog : Log.ofSettings (logSettings host arguments) host.clock host.tree = .ok log)
    (hscans : Scans host log arguments workspace) (hnone : arguments.configuration = none)
    {first : String} {rest : List String} (hfirst : workspace.configurations = first :: rest)
    {clock : Clock} {now : Time}
    (hother : Scans { host with clock } { log with clock } arguments (workspace.foundAt now)) :
    runWith { host with clock } { arguments with configuration := some first }
      = runWith host arguments := by
  have hne : workspace.configurations ≠ [] := by simp [hfirst]
  have hselection := hscans.selection_eq.1
  have hlog' : Log.ofSettings
      (logSettings { host with clock } { arguments with configuration := some first }) clock
      host.tree = .ok { log with clock } := ofSettings_clock hlog clock
  have hscanned : scanned { host with clock } { log with clock }
      { arguments with configuration := some first } = (workspace.foundAt now, "") :=
    hother.scanned_eq hne
  have hselected : selected (workspace.foundAt now) (some first) = .ok (workspace.foundAt now) :=
    selected_first hselection hfirst
  have hunselected : selected workspace none = .ok workspace := rfl
  simp only [runWith, hlog, hlog', hscanned, hscans.scanned_eq hne, hnone, hselected, hunselected,
    document_foundAt]
  rfl

/-- A run whose arguments are read and whose log is opened works with the workspace of its root, and
its outcome is what this workspace, the wanted configuration and the command make it. A log that is
none of the files that the scan reads has no part in it, and the clock none in what is found then.
Only solutions have configurations, so elsewhere none can be wanted. Where there are any and none is
wanted, the first one can be named as well, and naming it changes nothing, in this run or in one
under another clock that works with the same workspace. -/
theorem run_answers {host : Host} {arguments : List String} {parsed : Arguments} {log : Log}
    (hparse : parse arguments = .ok parsed)
    (hlog : Log.ofSettings (logSettings host parsed) host.clock host.tree = .ok log) :
    ∃ workspace, Scans host log parsed workspace ∧
      Answers workspace parsed.configuration parsed.command (run host arguments) ∧
      (log.IsApart (rootOf log.tree parsed) →
        (∃ now, workspace = .scanOrEmpty
          ((ImportSettings.ofEnvironment host.environment).withMsbuild parsed.msbuild) log.tree
          (rootOf log.tree parsed) now) ∧
        ∀ clock, ∃ now,
          Scans { host with clock } { log with clock } parsed (workspace.foundAt now)) ∧
      (workspace.format ≠ some .visualStudio → workspace.configurations = []) ∧
      ∀ first rest, workspace.configurations = first :: rest → parsed.configuration = none →
        parse (configurationArgument first :: arguments)
          = .ok { parsed with configuration := some first } ∧
        ∀ arguments', parse arguments' = .ok { parsed with configuration := some first } →
          run host arguments' = run host arguments ∧
          ∀ clock now,
            Scans { host with clock } { log with clock } parsed (workspace.foundAt now) →
              run { host with clock } arguments' = run host arguments := by
  have hrun : run host arguments = runWith host parsed := by
    simp only [run, hparse]
  obtain ⟨workspace, hscans⟩ : ∃ workspace, Scans host log parsed workspace :=
    ⟨_, scans_scanned host log parsed⟩
  have hanswers : Answers workspace parsed.configuration parsed.command (run host arguments) := by
    rw [hrun, hscans.eq_scanned]
    exact answers_runWith hlog
  have hclock : log = { log with clock := host.clock } :=
    Except.ok.inj (hlog.symm.trans (ofSettings_clock hlog host.clock))
  refine ⟨workspace, hscans, hanswers,
    fun hapart => ⟨hscans.eq_of_isApart hapart, hscans.foundAt hapart⟩, hscans.selection_eq.2,
    fun first rest hfirst hnone => ⟨parse_config_cons hparse hnone first,
      fun arguments' hparse' => ?_⟩⟩
  have hnow : Scans { host with clock := host.clock } { log with clock := host.clock } parsed
      (workspace.foundAt workspace.discoveredAt) := hclock ▸ hscans
  simp only [run, hparse', hparse]
  exact ⟨runWith_first hlog hscans hnone hfirst hnow,
    fun clock now hother => runWith_first hlog hscans hnone hfirst hother⟩

/-- A host with one solution in its current directory, at a time that does not pass. -/
def solutionHost (now : Time) : Host where
  environment _ := none
  tree := { files := [(["a.sln"], "GlobalSection(SolutionConfigurationPlatforms)\nD\nR".toUTF8)] }
  processTag := "7"
  clock _ := now

/-- Arguments that ask for the configurations, with a log in the directory that is scanned. -/
def loggedConfigurations : Arguments where
  root := none
  configuration := none
  msbuild := none
  logLevel := none
  logFile := some "run.log"
  command := .configurations

/-- What such a run prints. -/
def solutionOutput : String :=
  "\x7b\n  \"active\": \"D\",\n  \"configurations\": [\n    \"D\",\n    \"R\"\n  ]\n\x7d\n"

/-- The configurations of the solution are printed, now and later, with the first one named or
without. -/
theorem run_answers_solutionHost :
    parse ["--log-file", "run.log", "configs"] = .ok loggedConfigurations ∧
    ∃ log workspace,
      Log.ofSettings (logSettings (solutionHost ⟨1⟩) loggedConfigurations) (solutionHost ⟨1⟩).clock
        (solutionHost ⟨1⟩).tree = .ok log ∧
      log.IsApart "/" ∧
      Scans (solutionHost ⟨1⟩) log loggedConfigurations workspace ∧
      workspace.configurations = ["D", "R"] ∧
      Answers workspace none .configurations
        (run (solutionHost ⟨1⟩) ["--log-file", "run.log", "configs"]) ∧
      (run (solutionHost ⟨1⟩) ["--log-file", "run.log", "configs"]).output = solutionOutput ∧
      parse [configurationArgument "D", "--log-file", "run.log", "configs"]
        = .ok { loggedConfigurations with configuration := some "D" } ∧
      run (solutionHost ⟨2⟩) [configurationArgument "D", "--log-file", "run.log", "configs"]
        = run (solutionHost ⟨1⟩) ["--log-file", "run.log", "configs"] := by
  have hparse : parse ["--log-file", "run.log", "configs"] = .ok loggedConfigurations := by
    decide +kernel
  have hcheck : (Log.ofSettings (logSettings (solutionHost ⟨1⟩) loggedConfigurations)
      (solutionHost ⟨1⟩).clock (solutionHost ⟨1⟩).tree).toOption.any (fun log =>
        decide (log.IsApart "/") && rootOf log.tree loggedConfigurations == "/" &&
          (scanned (solutionHost ⟨1⟩) log loggedConfigurations).1.configurations == ["D", "R"])
      = true := by
    decide +kernel
  have houtput :
      (run (solutionHost ⟨1⟩) ["--log-file", "run.log", "configs"]).output = solutionOutput := by
    decide +kernel
  refine ⟨hparse, ?_⟩
  cases hlog : Log.ofSettings (logSettings (solutionHost ⟨1⟩) loggedConfigurations)
      (solutionHost ⟨1⟩).clock (solutionHost ⟨1⟩).tree with
  | error fault => simp [hlog, Except.toOption] at hcheck
  | ok log =>
      simp only [hlog, Except.toOption, Option.any_some, Bool.and_eq_true, decide_eq_true_eq,
        beq_iff_eq] at hcheck
      obtain ⟨⟨hapart, hroot⟩, hconfigurations⟩ := hcheck
      obtain ⟨workspace, hscans, hanswers, hbeside, -, hfirst⟩ := run_answers hparse hlog
      have hnames : workspace.configurations = ["D", "R"] := by
        rw [hscans.eq_scanned, hconfigurations]
      obtain ⟨-, hlater⟩ := hbeside (hroot ▸ hapart)
      obtain ⟨now, hscans'⟩ := hlater fun _ => ⟨2⟩
      obtain ⟨hparse', hsame⟩ := hfirst _ _ hnames rfl
      exact ⟨log, workspace, rfl, hapart, hscans, hnames, hanswers, houtput, hparse',
        (hsame _ hparse').2 _ _ hscans'⟩

end CommandLine

end BuildAtlas
