import ShellDispatch.Dispatcher.Fragment
import ShellDispatch.Proofs.Script.Line
import ShellDispatch.Proofs.Shell.Lines
import ShellDispatch.Proofs.Text.Pieces

/-!
# The lines of a dispatcher

`Fragment.lines` lists the lines of a dispatcher script in the shell's sense, in which a quoted
word may hold newlines; written out they are the script (`text_eq_unlines`). The lines are of two
kinds. Those of the dispatcher itself are `Plain`: they have no newline and define no command. The
others hold what comes from outside, between single quotes, the number of the exit status and the
names of functions apart.
-/

namespace ShellDispatch.Dispatcher

@[simp] theorem Piece.text_code (t : Text) : (Piece.code t).text = t := rfl

@[simp] theorem Piece.text_quoted (t : Text) : (Piece.quoted t).text = Shell.quote t := rfl

@[simp] theorem Piece.text_call (f : Text) : (Piece.call f).text = f := rfl

namespace Fragment

open Shell (IsLine quote isLine_append isLine_quote)
open Text (line unlines)

/-! ## Lines of the dispatcher itself -/

/-- The line is one line of shell text and one line of plain text, and it defines no command. -/
structure Plain (l : Text) : Prop where
  isLine : IsLine l
  newline_not_mem : '\n' ∉ l
  not_isDefinition : ¬ Script.IsDefinition l

instance : DecidablePred Plain := fun l =>
  decidable_of_iff (IsLine l ∧ '\n' ∉ l ∧ ¬ Script.IsDefinition l)
    ⟨fun h => ⟨h.1, h.2.1, h.2.2⟩, fun h => ⟨h.isLine, h.newline_not_mem, h.not_isDefinition⟩⟩

/-- The lines of a text that ends in a newline. -/
def codeLines (code : Text) : List Text := (Text.pieces code).dropLast

theorem unlines_codeLines (ls : List Text) : unlines (codeLines (unlines ls)) = unlines ls := by
  unfold codeLines
  rw [Text.pieces_unlines, List.dropLast_concat, Text.unlines_flatMap_pieces]

/-- The lines after the settings, up to the help function. -/
def hookLines : List Text := (codeLines hookCode).tail

/-- The lines of the help function before the listing. -/
def helpLines : List Text := codeLines helpCode

/-- The lines between the listing and the documentation. -/
def helpCaseLines : List Text := codeLines helpCaseCode

/-- The lines of the help function after the documentation. -/
def helpEndLines : List Text := codeLines helpEndCode

/-- The lines of the entry point before the commands. -/
def runLines : List Text := codeLines runCode

/-- The lines of the entry point after the commands. -/
def runEndLines : List Text := codeLines runEndCode

theorem plain_hookLines : ∀ l ∈ hookLines, Plain l := by decide +kernel

theorem plain_helpLines : ∀ l ∈ helpLines, Plain l := by decide +kernel

theorem plain_helpCaseLines : ∀ l ∈ helpCaseLines, Plain l := by decide +kernel

theorem plain_helpEndLines : ∀ l ∈ helpEndLines, Plain l := by decide +kernel

theorem plain_runLines : ∀ l ∈ runLines, Plain l := by decide +kernel

theorem plain_runEndLines : ∀ l ∈ runEndLines, Plain l := by decide +kernel

/-! ## Lines with texts from outside -/

/-- The line that sets the name for the usage line. -/
def baseCommandLine (name : Option Text) : Text :=
  baseCommandCode.tail ++ name.elim callerCode quote

/-- The line that sets the heading. -/
def helpPreambleLine (heading : Text) : Text := helpPreambleCode.tail ++ quote heading

/-- The line that sets the exit status. -/
def exitCodeLine (status : UInt8) : Text :=
  exitCodeCode.tail ++ Text.decimal status.toNat ++ "\x7d\"".toList

/-- The lines of the settings, from the newline with which the script begins. -/
def settingLines (o : Options) : List Text :=
  [] :: baseCommandLine o.baseCommand :: helpPreambleLine o.helpPreamble ::
    exitCodeLine o.exitCodeOnHelp :: hookLines

/-- The line that prints a row of the listing. -/
def rowLine (t : Text) : Text := "        echo ".toList ++ quote t

/-- The arm that prints the documentation of a target. -/
def helpArmLine (t : Target) : Text :=
  "            ".toList ++ quote t.name ++ " ) printf '%s\\n' ".toList ++ quote t.documentation ++
    " ;;".toList

/-- The arm that calls the function of a target. -/
def runArmLine (t : Target) : Text :=
  "        ".toList ++ quote t.name ++ " ) ".toList ++ t.functionName ++ " ;;".toList

/-- The lines of a dispatcher script. -/
def lines (f : Fragment) : List Text :=
  settingLines f.options ++ helpLines ++ f.rows.map rowLine ++ helpCaseLines ++
    f.targets.map helpArmLine ++ helpEndLines ++ runLines ++ f.targets.map runArmLine ++ runEndLines

/-! ## The script as lines -/

theorem hookCode_eq : hookCode = line "\x7d\"".toList ++ unlines hookLines := by decide +kernel

theorem flatMap_text_settings (o : Options) :
    (settings o).flatMap Piece.text = unlines (settingLines o) := by
  have hname : (o.baseCommand.elim (Piece.code callerCode) Piece.quoted).text =
      o.baseCommand.elim callerCode quote := by
    cases o.baseCommand <;> rfl
  -- every part but the first word of a line begins with the newline of the line before it
  obtain ⟨base, hbase⟩ : ∃ t, baseCommandCode = '\n' :: t := ⟨_, rfl⟩
  obtain ⟨heading, hheading⟩ : ∃ t, helpPreambleCode = '\n' :: t := ⟨_, rfl⟩
  obtain ⟨status, hstatus⟩ : ∃ t, exitCodeCode = '\n' :: t := ⟨_, rfl⟩
  unfold settings settingLines baseCommandLine helpPreambleLine exitCodeLine
  rw [hbase, hheading, hstatus, hookCode_eq]
  simp only [List.flatMap_cons, List.flatMap_nil, Piece.text_code, Piece.text_quoted, hname,
    Text.unlines_cons, line, List.tail_cons, List.nil_append, List.cons_append, List.append_assoc,
    List.append_nil]

theorem flatMap_text_row (t : Text) : (row t).flatMap Piece.text = line (rowLine t) := by
  unfold row rowLine
  simp only [List.flatMap_cons, List.flatMap_nil, Piece.text_code, Piece.text_quoted, line,
    List.nil_append, List.append_assoc, List.append_nil]

theorem flatMap_text_helpArm (t : Target) :
    (helpArm t).flatMap Piece.text = line (helpArmLine t) := by
  unfold helpArm helpArmLine
  simp only [List.flatMap_cons, List.flatMap_nil, Piece.text_code, Piece.text_quoted, line,
    List.append_assoc, List.append_nil]

theorem flatMap_text_runArm (t : Target) :
    (runArm t).flatMap Piece.text = line (runArmLine t) := by
  unfold runArm runArmLine
  simp only [List.flatMap_cons, List.flatMap_nil, Piece.text_code, Piece.text_quoted,
    Piece.text_call, line, List.append_assoc, List.append_nil]

/-- Parts that make up a line each make up lines together. -/
theorem flatMap_flatMap_text {α : Type} {parts : α → List Piece} {write : α → Text}
    (h : ∀ a, (parts a).flatMap Piece.text = line (write a)) (as : List α) :
    (as.flatMap parts).flatMap Piece.text = unlines (as.map write) := by
  induction as with
  | nil => rfl
  | cons a as ih =>
    rw [List.flatMap_cons, List.flatMap_append, h, ih, List.map_cons, Text.unlines_cons]

/-- **The script is its lines**, each followed by a newline. -/
theorem text_eq_unlines (f : Fragment) : f.text = unlines f.lines := by
  have hhelp : unlines helpLines = helpCode := unlines_codeLines _
  have hcase : unlines helpCaseLines = helpCaseCode := unlines_codeLines _
  have hend : unlines helpEndLines = helpEndCode := unlines_codeLines _
  have hrun : unlines runLines = runCode := unlines_codeLines _
  have hrunEnd : unlines runEndLines = runEndCode := unlines_codeLines _
  unfold text pieces lines help run
  simp only [List.flatMap_append, List.flatMap_cons, List.flatMap_nil, List.cons_append,
    Text.unlines_append, flatMap_text_settings, flatMap_flatMap_text flatMap_text_row,
    flatMap_flatMap_text flatMap_text_helpArm, flatMap_flatMap_text flatMap_text_runArm, hhelp,
    hcase, hend, hrun, hrunEnd, Piece.text_code, List.nil_append, List.append_assoc, List.append_nil]

/-! ## Each line is one line of shell text -/

theorem isLine_baseCommandLine (name : Option Text) : IsLine (baseCommandLine name) := by
  refine isLine_append (by decide +kernel) ?_
  cases name with
  | none => exact (by decide : IsLine callerCode)
  | some t => exact isLine_quote t

theorem isLine_helpPreambleLine (heading : Text) : IsLine (helpPreambleLine heading) :=
  isLine_append (by decide +kernel) (isLine_quote heading)

theorem isLine_rowLine (t : Text) : IsLine (rowLine t) :=
  isLine_append (by decide) (isLine_quote t)

theorem isLine_helpArmLine (t : Target) : IsLine (helpArmLine t) := by
  refine isLine_append (isLine_append (isLine_append (isLine_append ?_ ?_) ?_) ?_) ?_
  · decide
  · exact isLine_quote t.name
  · decide
  · exact isLine_quote t.documentation
  · decide

theorem after_double_decimal (n : Nat) :
    Shell.Mode.double.encloses (Text.decimal n) ∧
      Shell.Mode.double.after (Text.decimal n) = .double := by
  have h : ∀ t : Text, (∀ c ∈ t, c.isDigit) →
      Shell.Mode.double.encloses t ∧ Shell.Mode.double.after t = .double := by
    intro t ht
    induction t with
    | nil => exact ⟨rfl, rfl⟩
    | cons c t ih =>
      obtain ⟨hc, ht⟩ := List.forall_mem_cons.1 ht
      have hnext : Shell.Mode.double.next c = .double := by
        unfold Shell.Mode.next
        dsimp only
        rw [if_neg (by rintro rfl; exact absurd hc (by decide)),
          if_neg (by rintro rfl; exact absurd hc (by decide))]
      rw [Shell.Mode.encloses, Shell.Mode.after_cons, hnext]
      exact ih ht
  exact h _ fun c hc => Nat.isDigit_of_mem_toDigits (by decide) (by decide) hc

theorem isLine_exitCodeLine (status : UInt8) : IsLine (exitCodeLine status) := by
  obtain ⟨he, ha⟩ := after_double_decimal status.toNat
  have hstart : Shell.Mode.bare.encloses exitCodeCode.tail ∧
      Shell.Mode.bare.after exitCodeCode.tail = .double := by decide +kernel
  unfold exitCodeLine
  refine ⟨?_, ?_⟩
  · rw [Shell.Mode.encloses_append, Shell.Mode.encloses_append, Shell.Mode.after_append, hstart.1,
      hstart.2, he, ha]
    rfl
  · rw [Shell.Mode.after_append, Shell.Mode.after_append, hstart.2, ha]
    rfl

theorem isLine_settingLines (o : Options) : ∀ l ∈ settingLines o, IsLine l := by
  unfold settingLines
  simp only [List.forall_mem_cons]
  exact ⟨by decide, isLine_baseCommandLine _, isLine_helpPreambleLine _, isLine_exitCodeLine _,
    fun l hl => (plain_hookLines l hl).isLine⟩

end Fragment

/-! ## The script for commands -/

theorem generate_eq {commands : List Command} {rows : List Text}
    (hrows : Listing.rows commands = .ok rows) (options : Options) :
    generate commands options = .ok (Fragment.text ⟨options, rows, targets commands⟩) := by
  unfold generate Fragment.ofCommands
  rw [hrows]
  rfl

end ShellDispatch.Dispatcher
