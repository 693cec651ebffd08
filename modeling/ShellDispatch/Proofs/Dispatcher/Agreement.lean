import ShellDispatch.Proofs.Dispatcher.Reading
import ShellDispatch.Proofs.Dispatcher.Targets
import ShellDispatch.Proofs.Query.Answer

/-!
# Dispatchers agree with answers

A dispatcher script and the answers to queries are two ways to the commands of one script. What the
shell finds in the script for a name is what the answer for that name writes (`generate_agrees`), with
duplicate names and with any names and documentation.
-/

namespace ShellDispatch.Dispatcher

open Text (line unlines)

namespace Reading

/-- What was found answers as the queries on the commands do. Two names stand for what the dispatcher
does itself; any other is left to the commands. After the text of an answer comes an empty line. -/
structure Agrees (r : Reading) (commands : List Command) : Prop where
  builtin : ∀ a ∈ builtinArms, commandFor r.runArms a.pattern = some a.command
  run : ∀ name, name ≠ "help".toList → name ≠ "debug".toList → ∀ f,
    commandFor r.runArms name = some f ↔
      Answer.lookup commands name {} = Answer.written (line f)
  runMiss : ∀ name, name ≠ "help".toList → name ≠ "debug".toList →
    (commandFor r.runArms name = none ↔
      Answer.lookup commands name {} = .error (.lookupMiss name) {})
  help : ∀ name d, commandFor r.helpArms name = some d ↔
    Answer.help commands (.command name) {} = Answer.written (line d ++ line [])
  helpMiss : ∀ name, commandFor r.helpArms name = none ↔
    Answer.help commands (.command name) {} = .error (.notFound name) {}
  listing : commands ≠ [] →
    Answer.help commands .listing {} = Answer.written (unlines r.listing ++ line [])

theorem commandFor_targets (commands : List Command) (value : Target → Text) (name : Text) :
    commandFor ((targets commands).map fun t => ⟨t.name, value t⟩) name =
      (Answer.find? commands name).map fun c => value (.ofCommand c) := by
  unfold commandFor targets
  rw [List.map_map, List.find?_map, Option.map_map, ← find?_kept]
  rfl

theorem commandFor_builtinArms_append {name : Text} (hhelp : name ≠ "help".toList)
    (hdebug : name ≠ "debug".toList) (arms : List Arm) :
    commandFor (builtinArms ++ arms) name = commandFor arms name := by
  have hnone : builtinArms.find? (fun a => a.pattern = name) = none := by
    refine List.find?_eq_none.2 fun a ha => ?_
    rw [decide_eq_true_eq]
    rcases List.mem_cons.1 ha with rfl | ha
    · exact hhelp.symm
    · rw [List.mem_singleton.1 ha]
      exact hdebug.symm
  unfold commandFor
  rw [List.find?_append, hnone, Option.none_or]

theorem commandFor_builtinArms {a : Arm} (h : a ∈ builtinArms) (arms : List Arm) :
    commandFor (builtinArms ++ arms) a.pattern = some a.command := by
  have hfind : ∀ a ∈ builtinArms, builtinArms.find? (fun b => b.pattern = a.pattern) = some a := by
    decide
  unfold commandFor
  rw [List.find?_append, hfind a h, Option.some_or, Option.map_some]

theorem agrees_ofFragment {commands : List Command} {f : Fragment}
    (hrows : Listing.rows commands = .ok f.rows) (htargets : f.targets = targets commands) :
    (ofFragment f).Agrees commands where
  builtin _ ha := commandFor_builtinArms ha _
  run name hhelp hdebug g := by
    unfold ofFragment
    dsimp only
    rw [commandFor_builtinArms_append hhelp hdebug, htargets, commandFor_targets,
      Answer.lookup_eq_ok_iff]
    rfl
  runMiss name hhelp hdebug := by
    unfold ofFragment
    dsimp only
    rw [commandFor_builtinArms_append hhelp hdebug, htargets, commandFor_targets,
      Answer.lookup_eq_error_iff, Option.map_eq_none_iff]
  help name d := by
    unfold ofFragment
    dsimp only
    rw [htargets, commandFor_targets, Answer.help_command_eq_ok_iff]
    rfl
  helpMiss name := by
    unfold ofFragment
    dsimp only
    rw [htargets, commandFor_targets, Answer.help_command_eq_error_iff, Option.map_eq_none_iff]
  listing h := Answer.help_listing_eq h hrows

end Reading

/-- **The script for commands agrees with the answers about them**: it can be read back, and what is
found in it answers as the queries do. -/
theorem generate_agrees {commands : List Command} {rows : List Text}
    (hnames : ∀ c ∈ commands, '\n' ∉ c.functionName) (hrows : Listing.rows commands = .ok rows)
    (options : Options) :
    ∃ text reading, generate commands options = .ok text ∧ Reading.ofText? text = some reading ∧
      reading.Agrees commands := by
  refine ⟨_, _, generate_eq hrows options,
    Reading.ofText?_text (forall_mem_targets hnames), ?_⟩
  exact Reading.agrees_ofFragment hrows rfl

theorem generate_agrees_of_duplicates :
    ∃ text reading,
      generate [⟨"a-b", "cmd_a_b", 1, "it's"⟩, ⟨"a-b", "cmd_a-b", 3, "\n'"⟩] {} = .ok text ∧
      Reading.ofText? text = some reading ∧
      reading.Agrees [⟨"a-b", "cmd_a_b", 1, "it's"⟩, ⟨"a-b", "cmd_a-b", 3, "\n'"⟩] := by
  have hrows : Listing.rows [⟨"a-b", "cmd_a_b", 1, "it's"⟩, ⟨"a-b", "cmd_a-b", 3, "\n'"⟩] =
      .ok ["    a-b - it's".toList, "    a-b".toList] := rfl
  exact generate_agrees (by decide) hrows {}

end ShellDispatch.Dispatcher
