import ShellDispatch.Proofs.Dispatcher.Lines
import ShellDispatch.Proofs.Script.Extension
import ShellDispatch.Proofs.Text.LineStarts

/-!
# Definitions in a dispatcher

A dispatcher script is shell code too, so it can be searched for commands. Its own lines define
none; a line inside a quoted text is a line of the script, and defines a command if it looks as if
it did. A text is `Quiet` if that does not happen. `silent_lines_iff` says that the lines with a
definition come from nowhere else.
-/

namespace ShellDispatch

open Script (IsDefinition)
open Text (line unlines)

namespace Script

/-- No line of the text begins a definition, except perhaps the first. -/
def Quiet (t : Text) : Prop := ∀ l ∈ (Text.pieces t).tail, ¬ IsDefinition l

/-- No line of the text begins a definition. -/
def Silent (t : Text) : Prop := ∀ l ∈ Text.pieces t, ¬ IsDefinition l

instance : DecidablePred Quiet := fun t =>
  inferInstanceAs (Decidable (∀ l ∈ (Text.pieces t).tail, ¬ IsDefinition l))

theorem newline_not_mem_definitionMark : '\n' ∉ Line.definitionMark := by decide

theorem quiet_iff {t : Text} : Quiet t ↔ ¬ ('\n' :: Line.definitionMark) <:+: t := by
  rw [← Text.exists_mem_tail_pieces_iff newline_not_mem_definitionMark]
  unfold Quiet
  simp only [not_exists, not_and]
  rfl

theorem silent_iff {t : Text} : Silent t ↔ ¬ IsDefinition t ∧ Quiet t := by
  rw [quiet_iff, ← not_or]
  unfold IsDefinition
  rw [← Text.exists_mem_pieces_iff newline_not_mem_definitionMark]
  unfold Silent
  simp only [not_exists, not_and]
  rfl

theorem quiet_of_not_mem {t : Text} (h : '\n' ∉ t) : Quiet t :=
  quiet_iff.2 (Text.not_infix_of_not_mem h _)

theorem quiet_append_quote_iff {a b : Text} (ha : '\n' ∉ a) (hb : '\n' ∉ b) (t : Text) :
    Quiet (a ++ Shell.quote t ++ b) ↔ Quiet t := by
  rw [quiet_iff, quiet_iff, Shell.infix_append_quote_iff (by decide) ha hb]

theorem not_isDefinition_of_head? {c : Char} {t : Text} (h : t.head? = some c) (hc : c ≠ 'f') :
    ¬ IsDefinition t := by
  rintro ⟨r, rfl⟩
  exact hc (Option.some.inj h).symm

end Script

theorem newline_not_mem_quote {t : Text} (h : '\n' ∉ t) : '\n' ∉ Shell.quote t := by
  have hescape : '\n' ∉ Shell.escape t := by
    intro hm
    obtain ⟨c, hc, hcm⟩ := List.mem_flatMap.1 hm
    by_cases hq : c = '\''
    · subst hq
      exact absurd hcm (by decide)
    · rw [Shell.escapeChar_of_ne hq, List.mem_singleton] at hcm
      exact h (hcm ▸ hc)
  unfold Shell.quote
  simp only [List.mem_append, List.mem_cons, List.not_mem_nil, or_false, not_or]
  exact ⟨⟨by decide, hescape⟩, by decide⟩

theorem newline_not_mem_decimal (n : Nat) : '\n' ∉ Text.decimal n := by
  intro h
  exact absurd (Nat.isDigit_of_mem_toDigits (by decide) (by decide) h) (by decide)

namespace Dispatcher.Fragment

open Script (Quiet Silent silent_iff quiet_of_not_mem quiet_append_quote_iff
  not_isDefinition_of_head?)
open Shell (quote)

/-- The texts of a fragment that may have several lines. -/
def blocks (f : Fragment) : List Text :=
  f.targets.map (·.documentation) ++ f.options.baseCommand.toList ++ [f.options.helpPreamble]

/-- All other texts of a fragment have one line each. -/
structure OneLine (f : Fragment) : Prop where
  row : ∀ t ∈ f.rows, '\n' ∉ t
  name : ∀ t ∈ f.targets, '\n' ∉ t.name
  functionName : ∀ t ∈ f.targets, '\n' ∉ t.functionName

/-! ## Line by line -/

theorem newline_not_mem_settings :
    '\n' ∉ baseCommandCode.tail ++ callerCode ∧ '\n' ∉ helpPreambleCode.tail ∧
      '\n' ∉ exitCodeCode.tail := by
  decide +kernel

theorem silent_of_not_mem {t : Text} (h : '\n' ∉ t) (hd : ¬ IsDefinition t) : Silent t :=
  silent_iff.2 ⟨hd, quiet_of_not_mem h⟩

theorem Plain.silent {l : Text} (h : Plain l) : Silent l :=
  silent_of_not_mem h.newline_not_mem h.not_isDefinition

theorem silent_append_quote_iff {a b : Text} (ha : '\n' ∉ a) (hb : '\n' ∉ b) {t : Text}
    (hd : ¬ IsDefinition (a ++ quote t ++ b)) : Silent (a ++ quote t ++ b) ↔ Quiet t := by
  rw [silent_iff, and_iff_right hd, quiet_append_quote_iff ha hb]

theorem silent_baseCommandLine_iff (name : Option Text) :
    Silent (baseCommandLine name) ↔ ∀ t ∈ name.toList, Quiet t := by
  have hcode := newline_not_mem_settings.1
  rw [List.mem_append, not_or] at hcode
  cases name with
  | none =>
    have h : Silent (baseCommandLine none) :=
      silent_of_not_mem newline_not_mem_settings.1
        (not_isDefinition_of_head? (c := '[') rfl (by decide))
    exact ⟨fun _ t ht => absurd ht List.not_mem_nil, fun _ => h⟩
  | some t =>
    have h := silent_append_quote_iff hcode.1 List.not_mem_nil (t := t)
      (not_isDefinition_of_head? (c := '[') rfl (by decide))
    rw [List.append_nil] at h
    rw [Option.toList_some, List.forall_mem_singleton]
    exact h

theorem silent_helpPreambleLine_iff (heading : Text) :
    Silent (helpPreambleLine heading) ↔ Quiet heading := by
  have h := silent_append_quote_iff newline_not_mem_settings.2.1 List.not_mem_nil (t := heading)
    (not_isDefinition_of_head? (c := '[') rfl (by decide))
  rwa [List.append_nil] at h

theorem silent_exitCodeLine (status : UInt8) : Silent (exitCodeLine status) := by
  refine silent_of_not_mem ?_ (not_isDefinition_of_head? (c := 'b') rfl (by decide))
  unfold exitCodeLine
  simp only [List.mem_append, not_or]
  exact ⟨⟨newline_not_mem_settings.2.2, newline_not_mem_decimal _⟩, by decide⟩

theorem silent_rowLine {t : Text} (h : '\n' ∉ t) : Silent (rowLine t) := by
  refine silent_of_not_mem ?_ (not_isDefinition_of_head? (c := ' ') rfl (by decide))
  unfold rowLine
  rw [List.mem_append, not_or]
  exact ⟨by decide, newline_not_mem_quote h⟩

theorem silent_helpArmLine_iff {t : Target} (h : '\n' ∉ t.name) :
    Silent (helpArmLine t) ↔ Quiet t.documentation := by
  refine silent_append_quote_iff ?_ (by decide)
    (not_isDefinition_of_head? (c := ' ') rfl (by decide))
  simp only [List.mem_append, not_or]
  exact ⟨⟨by decide, newline_not_mem_quote h⟩, by decide⟩

theorem silent_runArmLine {t : Target} (hname : '\n' ∉ t.name) (hfunction : '\n' ∉ t.functionName) :
    Silent (runArmLine t) := by
  refine silent_of_not_mem ?_ (not_isDefinition_of_head? (c := ' ') rfl (by decide))
  unfold runArmLine
  simp only [List.mem_append, not_or]
  exact ⟨⟨⟨⟨by decide, newline_not_mem_quote hname⟩, by decide⟩, hfunction⟩, by decide⟩

/-! ## The whole script -/

theorem silent_settingLines_iff (o : Options) :
    (∀ l ∈ settingLines o, Silent l) ↔
      (∀ t ∈ o.baseCommand.toList, Quiet t) ∧ Quiet o.helpPreamble := by
  have hempty : Silent [] := silent_of_not_mem List.not_mem_nil (by decide)
  have hrest : Silent (exitCodeLine o.exitCodeOnHelp) ∧ ∀ l ∈ hookLines, Silent l :=
    ⟨silent_exitCodeLine _, fun l hl => (plain_hookLines l hl).silent⟩
  unfold settingLines
  simp only [List.forall_mem_cons]
  rw [and_iff_right hempty, silent_baseCommandLine_iff, silent_helpPreambleLine_iff,
    and_iff_left hrest]

/-- **Definitions come from blocks only**: a script of a fragment has no line that begins a
definition exactly if none of its blocks has one after its first line. -/
theorem silent_lines_iff {f : Fragment} (h : f.OneLine) :
    (∀ l ∈ f.lines, Silent l) ↔ ∀ t ∈ f.blocks, Quiet t := by
  have hrows : ∀ t ∈ f.rows, Silent (rowLine t) := fun t ht => silent_rowLine (h.row t ht)
  have hcalls : ∀ t ∈ f.targets, Silent (runArmLine t) :=
    fun t ht => silent_runArmLine (h.name t ht) (h.functionName t ht)
  have harms : (∀ t ∈ f.targets, Silent (helpArmLine t)) ↔
      ∀ t ∈ f.targets, Quiet t.documentation :=
    forall₂_congr fun t ht => silent_helpArmLine_iff (h.name t ht)
  unfold lines blocks
  simp only [List.forall_mem_append, List.forall_mem_map, List.forall_mem_singleton]
  rw [silent_settingLines_iff, harms]
  constructor
  · rintro ⟨⟨⟨⟨⟨⟨⟨⟨⟨hbase, hheading⟩, -⟩, -⟩, -⟩, hdocs⟩, -⟩, -⟩, -⟩, -⟩
    exact ⟨⟨hdocs, hbase⟩, hheading⟩
  · rintro ⟨⟨hdocs, hbase⟩, hheading⟩
    exact ⟨⟨⟨⟨⟨⟨⟨⟨⟨hbase, hheading⟩, fun l hl => (plain_helpLines l hl).silent⟩, hrows⟩,
      fun l hl => (plain_helpCaseLines l hl).silent⟩, hdocs⟩,
      fun l hl => (plain_helpEndLines l hl).silent⟩,
      fun l hl => (plain_runLines l hl).silent⟩, hcalls⟩,
      fun l hl => (plain_runEndLines l hl).silent⟩

end Dispatcher.Fragment

end ShellDispatch
