import ShellDispatch.Proofs.Command.Listing
import ShellDispatch.Proofs.Dispatcher.Quiet
import ShellDispatch.Proofs.Dispatcher.Targets
import ShellDispatch.Proofs.Script.Commands

/-!
# Generating again

A dispatcher script may be pasted at the end of the script it was generated from. If no text in it
has a line that looks like a definition, it defines no command itself and the script keeps its
commands, so generating again gives the same dispatcher (`regeneration`).
-/

namespace ShellDispatch

open Script (IsDefinition IsComment Quiet Silent scanLines)
open Script.Source (readLines)
open Text (line unlines)

/-! ## The script as text to be searched -/

theorem Script.forall_readLines_unlines_iff {ls : List Text} :
    (∀ l ∈ readLines (unlines ls), ¬ IsDefinition l) ↔ ∀ l ∈ ls, Silent l := by
  rw [Source.readLines_unlines, List.forall_mem_map]
  simp only [isDefinition_dropFinal, List.mem_flatMap]
  constructor
  · intro h l hl p hp
    exact h p ⟨l, hl, hp⟩
  · rintro h p ⟨l, hl, hp⟩
    exact h l hl p hp

namespace Dispatcher

theorem Fragment.commands_text_eq_nil_iff {f : Fragment} (h : f.OneLine) :
    Script.Source.commands { bytes := Utf8.encode f.text } = .ok [] ↔ ∀ t ∈ f.blocks, Quiet t := by
  rw [Script.Source.commands_encode, text_eq_unlines, Script.scanLines_eq_ok_nil_iff,
    Script.forall_readLines_unlines_iff, silent_lines_iff h]

/-- A script that defines nothing adds nothing to the script it is pasted to. -/
theorem Fragment.commands_append_text {f : Fragment} (h : ∀ l ∈ f.lines, Silent l) (s : Text) :
    Script.Source.commands { bytes := Utf8.encode (s ++ f.text) } =
      Script.Source.commands { bytes := Utf8.encode s } := by
  obtain ⟨rest, hrest⟩ : ∃ rest, f.lines = [] :: baseCommandLine f.options.baseCommand :: rest :=
    ⟨_, rfl⟩
  have htext : f.text = '\n' :: unlines (baseCommandLine f.options.baseCommand :: rest) := by
    rw [text_eq_unlines, hrest]
    rfl
  rw [hrest, List.forall_mem_cons] at h
  rw [Script.Source.commands_encode, Script.Source.commands_encode, htext]
  refine Script.Source.scanLines_readLines_append s (Script.forall_readLines_unlines_iff.2 h.2) ?_
  -- the line of the first setting ends the documentation at the end of the script
  obtain ⟨q, qs, hq⟩ := List.exists_cons_of_ne_nil
    (Text.pieces_ne_nil (baseCommandLine f.options.baseCommand))
  obtain ⟨r, rfl⟩ : ['['] <+: q := (Text.prefix_head_pieces_iff (by decide) hq).2 ⟨_, rfl⟩
  have hcomment : ¬ IsComment (['['] ++ r) := by
    unfold Script.IsComment
    rw [List.singleton_append, Text.trim_cons (by decide), List.head?_cons]
    decide
  intro l hl
  rw [Script.Source.readLines_unlines, List.flatMap_cons, hq] at hl
  obtain rfl : Text.dropFinal '\r' (['['] ++ r) = l := Option.some.inj hl
  exact mt Script.isComment_dropFinal.1 hcomment

/-! ## Generating again -/

/-- The dispatcher script for the text of a script. -/
def scriptFor? (options : Options) (script : Text) : Option Text := do
  let commands ← (Script.Source.commands { bytes := Utf8.encode script }).toOption
  (generate commands options).toOption

/-- The dispatcher of a script has nothing but blocks that could define commands. -/
theorem oneLine_of_commands {s : Text} {commands : List Command} {rows : List Text}
    (hs : Script.Source.commands { bytes := Utf8.encode s } = .ok commands)
    (hrows : Listing.rows commands = .ok rows) (options : Options) :
    (Fragment.mk options rows (targets commands)).OneLine := by
  have hnames : ∀ c ∈ commands, '\n' ∉ c.name ∧ '\n' ∉ c.functionName :=
    fun c hc => (Script.isFound_of_commands hs c hc).newline_not_mem
  exact ⟨Listing.newline_not_mem_rows (fun c hc => (hnames c hc).1) hrows,
    forall_mem_targets fun c hc => (hnames c hc).1, forall_mem_targets fun c hc => (hnames c hc).2⟩

theorem forall_blocks_iff (commands : List Command) (rows : List Text) (options : Options) :
    (∀ t ∈ (Fragment.mk options rows (targets commands)).blocks, Quiet t) ↔
      (∀ c ∈ kept commands, Quiet c.documentation) ∧ (∀ t ∈ options.baseCommand, Quiet t) ∧
        Quiet options.helpPreamble := by
  unfold Fragment.blocks targets
  simp only [List.forall_mem_append, List.forall_mem_map, List.forall_mem_singleton,
    Option.mem_toList, and_assoc]
  rfl

/-- **Generating again changes nothing.** The dispatcher script of a script is a script without
commands exactly if no line after the first of a documentation that is kept, of the name for the
usage line or of the heading begins a definition. Then the script with its dispatcher below it has
the same commands as before, on the same lines, so its dispatcher is the same. -/
theorem regeneration {s : Text} {commands : List Command} {rows : List Text}
    (hs : Script.Source.commands { bytes := Utf8.encode s } = .ok commands)
    (hrows : Listing.rows commands = .ok rows) (options : Options) :
    ∃ dispatcher, scriptFor? options s = some dispatcher ∧
      generate commands options = .ok dispatcher ∧
      (Script.Source.commands { bytes := Utf8.encode dispatcher } = .ok [] ↔
        (∀ c ∈ kept commands, Quiet c.documentation) ∧ (∀ t ∈ options.baseCommand, Quiet t) ∧
          Quiet options.helpPreamble) ∧
      ((∀ c ∈ kept commands, Quiet c.documentation) ∧ (∀ t ∈ options.baseCommand, Quiet t) ∧
          Quiet options.helpPreamble →
        Script.Source.commands { bytes := Utf8.encode (s ++ dispatcher) } = .ok commands ∧
          scriptFor? options (s ++ dispatcher) = some dispatcher) := by
  have hline := oneLine_of_commands hs hrows options
  have hgenerate := generate_eq hrows options
  have hfor : ∀ {t : Text}, Script.Source.commands { bytes := Utf8.encode t } = .ok commands →
      scriptFor? options t = some (Fragment.text ⟨options, rows, targets commands⟩) := by
    intro t ht
    unfold scriptFor?
    rw [ht]
    show (generate commands options).toOption = _
    rw [hgenerate]
    rfl
  rw [← forall_blocks_iff commands rows]
  refine ⟨_, hfor hs, hgenerate, Fragment.commands_text_eq_nil_iff hline, fun hquiet => ?_⟩
  have hsilent := (Fragment.silent_lines_iff hline).2 hquiet
  have happend := (Fragment.commands_append_text hsilent s).trans hs
  exact ⟨happend, hfor happend⟩

/-- The script may end within the documentation of its last command. -/
theorem regeneration_of_unfinished :
    ∃ dispatcher, scriptFor? {} "function cmd_a() \x7b\n# it's" = some dispatcher ∧
      scriptFor? {} ("function cmd_a() \x7b\n# it's".toList ++ dispatcher) = some dispatcher := by
  have hs : Script.Source.commands { bytes := Utf8.encode "function cmd_a() \x7b\n# it's" } =
      .ok [⟨"a", "cmd_a", 1, "it's"⟩] := by
    rw [Script.Source.commands_encode]
    exact Script.scanLines_eq_ok_iff.2 (by decide +kernel)
  have hrows : Listing.rows [⟨"a", "cmd_a", 1, "it's"⟩] = .ok ["    a - it's".toList] := rfl
  obtain ⟨dispatcher, hdispatcher, -, -, hagain⟩ := regeneration hs hrows {}
  exact ⟨dispatcher, hdispatcher, (hagain ⟨by decide, by decide, by decide⟩).2⟩

end Dispatcher

end ShellDispatch
