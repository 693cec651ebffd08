import Mathlib.Data.List.Forall2
import ShellDispatch.Proofs.Dispatcher.Reading
import ShellDispatch.Proofs.Dispatcher.Targets
import ShellDispatch.Proofs.Script.Commands
import ShellDispatch.Proofs.Shell.Words

/-!
# The calls of a dispatcher

The arm of a command holds the name of its function as it stands, without quotes. The name is what
the script has between the mark of a definition and the first parenthesis, so it need not be a name
in the sense of the shell. `generate_calls` tells which names the shell reads back as one word: those
of plain characters that assign no tilde. A definition without parentheses whose line has one further
on, in a comment, gives a name that is no word, and a call that comments out the end of its arm
(`generate_calls_of_comment`).
-/

namespace ShellDispatch.Dispatcher

open Script (Source isFound_of_commands)

/-- The arm for a command in the entry point. -/
def Arm.ofCommand (c : Command) : Arm := ⟨c.name, c.functionName⟩

/-- The arms of the entry point are those of the commands that are kept, behind the built-in ones. -/
theorem runArms?_of_commands {s : Source} {commands : List Command} {rows : List Text}
    (hs : s.commands = .ok commands) (hrows : Listing.rows commands = .ok rows)
    (options : Options) :
    ∃ text, generate commands options = .ok text ∧
      Reading.runArms? text =
        some (Reading.builtinArms ++ (kept commands).map Arm.ofCommand) := by
  have hnames : ∀ t ∈ targets commands, '\n' ∉ t.functionName :=
    forall_mem_targets fun c hc => (isFound_of_commands hs c hc).newline_not_mem.2
  have harms : (targets commands).map (fun t => (⟨t.name, t.functionName⟩ : Arm)) =
      (kept commands).map Arm.ofCommand := List.map_map
  refine ⟨_, generate_eq hrows options, ?_⟩
  rw [Reading.runArms?_text hnames, harms]

/-- The name of a function begins a word, with neither the sign of a comment nor a tilde. -/
theorem words_functionName_iff {c : Command} (h : c.IsFound) :
    Shell.words c.functionName = some [c.functionName] ↔
      (∀ d ∈ c.functionName, Shell.IsPlain d) ∧ ¬ Shell.AssignsTilde c.functionName := by
  obtain ⟨id, -, -, -, -, hfunction⟩ := h.names
  have hcomment : some 'c' ≠ some '#' := by decide
  have htilde : some 'c' ≠ some '~' := by decide
  rw [hfunction]
  exact Shell.words_eq_singleton_iff (List.cons_ne_nil _ _) hcomment htilde

/-- **A call is read as the name of its function exactly if the name is plain.** The entry point for
the commands of a script has one arm for each command that is kept. The shell reads what the arm runs
as one word, the name of the function, if every character of the name stands for itself outside
quotes and the name does not assign a tilde, and in no other case. -/
theorem generate_calls {s : Source} {commands : List Command} {rows : List Text}
    (hs : s.commands = .ok commands) (hrows : Listing.rows commands = .ok rows)
    (options : Options) :
    ∃ text arms, generate commands options = .ok text ∧
      Reading.runArms? text = some (Reading.builtinArms ++ arms) ∧
      List.Forall₂ (fun c a => a.pattern = c.name ∧
        (Shell.words a.command = some [c.functionName] ↔
          (∀ d ∈ c.functionName, Shell.IsPlain d) ∧ ¬ Shell.AssignsTilde c.functionName))
        (kept commands) arms := by
  obtain ⟨text, hgenerate, harms⟩ := runArms?_of_commands hs hrows options
  refine ⟨text, _, hgenerate, harms, List.forall₂_map_right_iff.2 (List.forall₂_same.2 ?_)⟩
  intro c hc
  exact ⟨rfl, words_functionName_iff (isFound_of_commands hs c (mem_of_mem_kept hc))⟩

/-- A name with a tilde and a sign for comments within it is plain. -/
theorem generate_calls_of_plain :
    ∃ text arm,
      generate [⟨"a-b~#1", "cmd_a_b~#1", 1, []⟩] {} = .ok text ∧
      Reading.runArms? text = some (Reading.builtinArms ++ [arm]) ∧
      arm.pattern = "a-b~#1".toList ∧ Shell.words arm.command = some ["cmd_a_b~#1".toList] := by
  have hs : Source.commands { bytes := Utf8.encode "function cmd_a_b~#1 () \x7b" } =
      .ok [⟨"a-b~#1", "cmd_a_b~#1", 1, []⟩] :=
    Source.commands_encode_eq_ok_iff.2 (by decide +kernel)
  have hrows : Listing.rows [⟨"a-b~#1", "cmd_a_b~#1", 1, []⟩] = .ok ["    a-b~#1".toList] := rfl
  obtain ⟨text, arms, hgenerate, harms, hcalls⟩ := generate_calls hs hrows {}
  obtain ⟨arm, rest, ⟨hpattern, hwords⟩, hrest, rfl⟩ := List.forall₂_cons_left_iff.1 hcalls
  obtain rfl := List.forall₂_nil_left_iff.1 hrest
  exact ⟨text, arm, hgenerate, harms, hpattern,
    hwords.2 ⟨List.forall_iff_forall_mem.1 (by decide), Shell.not_assignsTilde_of_not_mem (by decide)⟩⟩

/-- A definition may do without parentheses, and a comment at its end have one. The name then takes in
the brace, the sign of the comment and a word, and the call ends in a comment. -/
theorem generate_calls_of_comment :
    Source.commands { bytes := Utf8.encode "function cmd_build \x7b # compile (fast)" } =
        .ok [⟨"build \x7b # compile", "cmd_build \x7b # compile", 1, []⟩] ∧
      ∃ text arm, generate [⟨"build \x7b # compile", "cmd_build \x7b # compile", 1, []⟩] {} = .ok text ∧
        Reading.runArms? text = some (Reading.builtinArms ++ [arm]) ∧
        arm.pattern = "build \x7b # compile".toList ∧ arm.command = "cmd_build \x7b # compile".toList ∧
        Shell.words arm.command = none := by
  have hs : Source.commands { bytes := Utf8.encode "function cmd_build \x7b # compile (fast)" } =
      .ok [⟨"build \x7b # compile", "cmd_build \x7b # compile", 1, []⟩] :=
    Source.commands_encode_eq_ok_iff.2 (by decide +kernel)
  have hrows : Listing.rows [⟨"build \x7b # compile", "cmd_build \x7b # compile", 1, []⟩] =
      .ok ["    build \x7b # compile".toList] := rfl
  obtain ⟨text, hgenerate, harms⟩ := runArms?_of_commands hs hrows {}
  exact ⟨hs, text, _, hgenerate, harms, rfl, rfl, by decide⟩

end ShellDispatch.Dispatcher
