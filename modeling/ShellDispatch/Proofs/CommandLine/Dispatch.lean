import ShellDispatch.Proofs.Command.Listing
import ShellDispatch.Proofs.CommandLine.Run
import ShellDispatch.Proofs.Dispatcher.Lines

/-!
# Runs that write a dispatcher

Everything that can go wrong in such a run goes wrong before the first character of the dispatcher
is printed (`DispatchEnds`). So the output is the whole dispatcher or nothing, and which of both the
status tells (`run_dispatch`).
-/

namespace ShellDispatch.CommandLine

open Script (ScanError commandsOfAll)

/-- Prints the dispatcher for the commands. -/
def printDispatcher (a : DispatchArguments) (commands : List Command) : Program Unit :=
  match Dispatcher.generate commands a.options with
  | .error cause => throw (.overflow cause)
  | .ok script => Program.print script

/-- What the tool does after it has prepared its log. -/
def dispatchBody (a : DispatchArguments) : Program Unit := do
  if a.files = [] then throw (.usage "Expected one or more files to parse.")
  let commands ← Program.loadScripts a.files
  printDispatcher a commands

/-- What is printed, and how the run ends, when the scripts give `loaded`. -/
inductive DispatchEnds (a : DispatchArguments) (loaded : Except ScanError (List Command)) :
    Text → Except Stop Unit → Prop where
  | noFiles (h : a.files = []) :
    DispatchEnds a loaded [] (.error (.usage "Expected one or more files to parse."))
  | unloaded {e : ScanError} (hfiles : a.files ≠ []) (h : loaded = .error e) :
    DispatchEnds a loaded [] (.error (.failed e.message))
  | unaligned {commands : List Command} {cause : Listing.Overflow} (hfiles : a.files ≠ [])
    (h : loaded = .ok commands) (hscript : Dispatcher.generate commands a.options = .error cause) :
    DispatchEnds a loaded [] (.error (.overflow cause))
  | written {commands : List Command} {script : Text} (hfiles : a.files ≠ [])
    (h : loaded = .ok commands) (hscript : Dispatcher.generate commands a.options = .ok script) :
    DispatchEnds a loaded script (.ok ())

section

variable {content : Text → Except File.Failure Bytes} {paths : List Text}

/-- The effect of printing the dispatcher for the commands. -/
def printEffect (a : DispatchArguments) (commands : List Command) : Effect Stop Unit :=
  match Dispatcher.generate commands a.options with
  | .error cause => ⟨[], [], .error (.overflow cause)⟩
  | .ok script => ⟨[], script, .ok ()⟩

theorem hasEffect_printDispatcher (a : DispatchArguments) (commands : List Command) :
    HasEffect content paths (printDispatcher a commands) (printEffect a commands) := by
  unfold printDispatcher printEffect
  cases Dispatcher.generate commands a.options with
  | error cause => exact hasEffect_throw _
  | ok script => exact hasEffect_print script

theorem exists_hasEffect_dispatch (content : Text → Except File.Failure Bytes)
    (a : DispatchArguments) :
    ∃ e, HasEffect content a.files (dispatchBody a) e ∧
      DispatchEnds a (commandsOfAll content a.files) e.printed e.ending := by
  unfold dispatchBody
  by_cases hfiles : a.files = []
  · rw [if_pos hfiles]
    exact ⟨⟨[], [], .error _⟩, hasEffect_throw _, .noFiles hfiles⟩
  · rw [if_neg hfiles]
    obtain ⟨records, hload⟩ : ∃ records, HasEffect content a.files (Program.loadScripts a.files)
        ⟨records, [], (commandsOfAll content a.files).mapError fun e => .failed e.message⟩ :=
      exists_hasEffect_loadScripts fun _ h => h
    refine ⟨_, hasEffect_bind hload fun commands _ => hasEffect_printDispatcher a commands, ?_⟩
    cases hloaded : commandsOfAll content a.files with
    | error e => exact .unloaded hfiles rfl
    | ok commands =>
      show DispatchEnds a (.ok commands) (printEffect a commands).printed
        (printEffect a commands).ending
      unfold printEffect
      cases hscript : Dispatcher.generate commands a.options with
      | error cause => exact .unaligned hfiles rfl hscript
      | ok script => exact .written hfiles rfl hscript

end

theorem exists_generate_eq_ok_iff {commands : List Command} {options : Dispatcher.Options} :
    (∃ script, Dispatcher.generate commands options = .ok script) ↔ Listing.CanAlign commands := by
  rw [← Listing.exists_rows_eq_ok_iff]
  unfold Dispatcher.generate Dispatcher.Fragment.ofCommands
  cases Listing.rows commands with
  | error cause =>
    constructor
    · rintro ⟨script, h⟩
      exact absurd h nofun
    · rintro ⟨rows, h⟩
      exact absurd h nofun
  | ok rows => exact ⟨fun _ => ⟨rows, rfl⟩, fun _ => ⟨_, rfl⟩⟩

namespace DispatchEnds

variable {a : DispatchArguments} {loaded : Except ScanError (List Command)} {printed : Text}
  {ending : Except Stop Unit}

theorem eq_ok_iff (h : DispatchEnds a loaded printed ending) :
    ending = .ok () ↔
      a.files ≠ [] ∧ ∃ commands, loaded = .ok commands ∧ Listing.CanAlign commands := by
  cases h with
  | noFiles hfiles => exact ⟨nofun, fun hs => absurd hfiles hs.1⟩
  | unloaded hfiles hloaded =>
    subst hloaded
    exact ⟨nofun, fun ⟨_, _, hcommands, _⟩ => absurd hcommands nofun⟩
  | unaligned hfiles hloaded hscript =>
    subst hloaded
    refine ⟨nofun, ?_⟩
    rintro ⟨-, commands, hcommands, halign⟩
    obtain rfl := Except.ok.inj hcommands
    obtain ⟨script, hgenerate⟩ := exists_generate_eq_ok_iff.2 halign
    exact absurd (hscript.symm.trans hgenerate) nofun
  | written hfiles hloaded hscript =>
    exact ⟨fun _ => ⟨hfiles, _, hloaded, exists_generate_eq_ok_iff.1 ⟨_, hscript⟩⟩, fun _ => rfl⟩

theorem eq_overflow_iff (h : DispatchEnds a loaded printed ending) :
    (∃ cause, ending = .error (.overflow cause)) ↔
      a.files ≠ [] ∧ ∃ commands, loaded = .ok commands ∧ ¬ Listing.CanAlign commands := by
  cases h with
  | noFiles hfiles => exact ⟨fun ⟨_, hs⟩ => absurd hs nofun, fun hs => absurd hfiles hs.1⟩
  | unloaded hfiles hloaded =>
    subst hloaded
    exact ⟨fun ⟨_, hs⟩ => absurd hs nofun, fun ⟨_, _, hcommands, _⟩ => absurd hcommands nofun⟩
  | unaligned hfiles hloaded hscript =>
    refine ⟨fun _ => ⟨hfiles, _, hloaded, fun halign => ?_⟩, fun _ => ⟨_, rfl⟩⟩
    obtain ⟨script, hgenerate⟩ := exists_generate_eq_ok_iff.2 halign
    exact absurd (hscript.symm.trans hgenerate) nofun
  | written hfiles hloaded hscript =>
    subst hloaded
    refine ⟨fun ⟨_, hs⟩ => absurd hs nofun, ?_⟩
    rintro ⟨-, commands, hcommands, halign⟩
    obtain rfl := Except.ok.inj hcommands
    exact absurd (exists_generate_eq_ok_iff.1 ⟨_, hscript⟩) halign

theorem printed_of_ok (h : DispatchEnds a loaded printed (.ok ())) :
    ∃ commands, loaded = .ok commands ∧ Dispatcher.generate commands a.options = .ok printed := by
  cases h with
  | written hfiles hloaded hscript => exact ⟨_, hloaded, hscript⟩

theorem printed_of_ne_ok (h : DispatchEnds a loaded printed ending) (hending : ending ≠ .ok ()) :
    printed = [] := by
  cases h with
  | noFiles => rfl
  | unloaded => rfl
  | unaligned => rfl
  | written => exact absurd rfl hending

end DispatchEnds

theorem run_dispatch_eq {words : List Text} {a : DispatchArguments}
    (h : DispatchArguments.ofWords {} words = .ok (.run a)) (setting : Option Text)
    (files : File.Tree) :
    Tool.run .dispatch words setting files = .ofResult dispatchUsage
      (withLog a.logFile (.ofSetting setting) (dispatchBody a) { files }) := by
  show Outcome.ofRequest _ _ _ files (DispatchArguments.ofWords {} words) = _
  rw [h]
  rfl

/-- **A dispatcher is written in full or not at all.** The run succeeds if the log file can be made,
there is a script, all scripts can be loaded and the listing can be aligned; then the output is the
dispatcher for the loaded commands, with the options that the arguments set and the defaults of the
others. Every other run has no output. -/
theorem run_dispatch {words : List Text} {a : DispatchArguments}
    (hwords : DispatchArguments.ofWords {} words = .ok (.run a)) (setting : Option Text)
    (files : File.Tree) (hapart : LogApart files a.logFile a.files) :
    let o := Tool.run .dispatch words setting files
    (o.status = 0 ↔ CanLog files a.logFile ∧ a.files ≠ [] ∧
      ∃ commands, Script.loaded files.read a.files = .ok commands ∧ Listing.CanAlign commands) ∧
    (o.status = 0 → ∃ commands script, Script.loaded files.read a.files = .ok commands ∧
      Dispatcher.generate commands
        { baseCommand := a.baseCommand
          helpPreamble := a.helpPreamble.getD "Commands".toList
          exitCodeOnHelp := a.exitCodeOnHelp.getD 1 } = .ok script ∧
      o.output = Utf8.encode script) ∧
    (o.status ≠ 0 → (o.status = 1 ∨ o.status = 101) ∧ o.output = []) ∧
    (o.status = 101 ↔ CanLog files a.logFile ∧ a.files ≠ [] ∧
      ∃ commands, Script.loaded files.read a.files = .ok commands ∧
        ¬ Listing.CanAlign commands) := by
  obtain ⟨e, heffect, hends⟩ := exists_hasEffect_dispatch files.read a
  intro o
  have ho : Outcome.ofResult dispatchUsage
      (withLog a.logFile (.ofSetting setting) (dispatchBody a) { files }) = o :=
    (run_dispatch_eq hwords setting files).symm
  simp only [Script.loaded_eq]
  rcases status_output_withLog heffect hapart _ _ ho with
    ⟨hcan, hstatus, houtput⟩ | ⟨hcan, hstatus, houtput⟩
  · have hzero : o.status = 0 ↔ e.ending = .ok () := by rw [hstatus, Effect.status_eq_zero_iff]
    refine ⟨?_, fun h => ?_, fun h => ?_, ?_⟩
    · rw [hzero, hends.eq_ok_iff]
      exact ⟨fun h => ⟨hcan, h⟩, fun h => h.2⟩
    · rw [hzero.1 h] at hends
      obtain ⟨commands, hloaded, hscript⟩ := hends.printed_of_ok
      exact ⟨commands, e.printed, hloaded, hscript, houtput⟩
    · have hne : e.ending ≠ .ok () := fun hending => h (hzero.2 hending)
      rw [hstatus, houtput, hends.printed_of_ne_ok hne]
      rcases e.status_cases with ⟨-, hending⟩ | ⟨hs, -⟩ | ⟨hs, -⟩
      · exact absurd hending hne
      · exact ⟨Or.inr hs, rfl⟩
      · exact ⟨Or.inl hs, rfl⟩
    · rw [hstatus, Effect.status_eq_overflow_iff, hends.eq_overflow_iff]
      exact ⟨fun h => ⟨hcan, h⟩, fun h => h.2⟩
  · have hzero : (1 : UInt8) ≠ 0 := by decide
    have hoverflow : (1 : UInt8) ≠ 101 := by decide
    rw [hstatus, houtput]
    exact ⟨⟨fun h => absurd h hzero, fun h => absurd h.1 hcan⟩, fun h => absurd h hzero,
      fun _ => ⟨Or.inl rfl, rfl⟩, ⟨fun h => absurd h hoverflow, fun h => absurd h.1 hcan⟩⟩

/-- A command line with every option, in both forms and on both sides of the script. -/
def everyOption : List Text :=
  ["--log-file=log".toList, "--base-command".toList, "./x".toList, "a".toList,
    "--help-preamble=It's here".toList, "--exit-code-on-help".toList, "3".toList]

theorem run_dispatch_of_everyOption :
    DispatchArguments.ofWords {} everyOption = .ok (.run {
        files := ["a".toList], baseCommand := some "./x".toList,
        helpPreamble := some "It's here".toList, exitCodeOnHelp := some 3,
        logFile := some "log".toList }) ∧
      LogApart oneScript (some "log".toList) ["a".toList] ∧
      (Tool.run .dispatch everyOption (some "trace".toList) oneScript).status = 0 ∧
      ∃ script, Dispatcher.generate [⟨"a", "cmd_a", 1, "doc"⟩]
          { baseCommand := some "./x".toList, helpPreamble := "It's here".toList,
            exitCodeOnHelp := 3 } = .ok script ∧
        (Tool.run .dispatch everyOption (some "trace".toList) oneScript).output =
          Utf8.encode script := by
  have hwords : DispatchArguments.ofWords {} everyOption = .ok (.run {
      files := ["a".toList], baseCommand := some "./x".toList,
      helpPreamble := some "It's here".toList, exitCodeOnHelp := some 3,
      logFile := some "log".toList }) := by decide +kernel
  have hapart := logApart_oneScript
  obtain ⟨hzero, houtput, -⟩ := run_dispatch hwords (some "trace".toList) oneScript hapart
  have hstatus : (Tool.run .dispatch everyOption (some "trace".toList) oneScript).status = 0 := by
    refine hzero.2 ⟨fun p hp => ?_, List.cons_ne_nil _ _, _, loaded_oneScript, Or.inl (by decide)⟩
    obtain rfl := Option.some.inj hp
    exact ⟨_, create_oneScript⟩
  refine ⟨hwords, hapart, hstatus, ?_⟩
  obtain ⟨commands, script, hloaded, hscript, hencoded⟩ := houtput hstatus
  obtain rfl := Except.ok.inj (loaded_oneScript.symm.trans hloaded)
  exact ⟨script, hscript, hencoded⟩

end ShellDispatch.CommandLine
