import ShellDispatch.Proofs.Dispatcher.Lines

/-!
# A dispatcher read back

What the shell finds in a dispatcher script, read off its text alone: the listing and the arms of
the two `case` commands, found by the lines that lead to them. Patterns and arguments are read by the
rules for quotes and backslashes; the command of an arm that calls a function is the rest of its
line. The main statements are that all of it is what the fragment says, whatever texts it holds
(`listing?_text`, `helpArms?_text`, `runArms?_text`).
-/

namespace ShellDispatch.Dispatcher

open Shell (IsLine quote readWord readUntil afterLine?)
open Text (line unlines)

/-- An arm of a `case` command: the word for which it is taken, and what it runs or prints. -/
structure Arm where
  pattern : Text
  command : Text
deriving DecidableEq, Repr

namespace Reading

/-! ## Readers -/

/-- Reads a pattern: letters between double quotes, or a word. -/
def readPattern : Text → Option (Text × Text)
  | '"' :: t =>
    (Text.rest? (t.takeWhile Char.isAlpha ++ ['"']) t).map fun r => (t.takeWhile Char.isAlpha, r)
  | t => readWord t

/-- What precedes `tail` in a text that ends with it. -/
def before? (tail t : Text) : Option Text := (Text.rest? tail.reverse t.reverse).map List.reverse

/-- Reads a command that takes the rest of its line, up to `;;` and a blank before it. -/
def readCall (t : Text) : Option (Text × Text) := do
  let l := t.takeWhile (· ≠ '\n')
  let r ← Text.rest? (line l) t
  let command ← before? ";;" l
  return (Text.dropFinal ' ' command, r)

/-- Reads a command that prints a word and a newline: the word. -/
def readPrint (t : Text) : Option (Text × Text) := do
  let r ← Text.rest? "printf '%s\\n' " t
  let (word, r) ← readWord r
  let r ← Text.rest? (line " ;;") r
  return (word, r)

/-- Reads an arm whose command is read by `command`. -/
def readArm (command : Text → Option (Text × Text)) (t : Text) : Option (Arm × Text) := do
  let (pattern, r) ← readPattern (t.dropWhile (· = ' '))
  let r ← Text.rest? " ) " r
  let (command, r) ← command r
  return (⟨pattern, command⟩, r)

/-- Reads a line that prints a word. -/
def readEcho (t : Text) : Option (Text × Text) := do
  let r ← Text.rest? "        echo " t
  let (word, r) ← readWord r
  let r ← Text.rest? ['\n'] r
  return (word, r)

/-- The line that begins the help function. -/
def helpHeader : Text := "function bashi_help() \x7b"

/-- The line above the listing. -/
def listingHeader : Text := "        echo \"$\x7bbashi_help_preamble\x7d :\""

/-- The line above the arms of the help function. -/
def helpCaseHeader : Text := "        case \"$1\" in"

/-- The line that begins the entry point. -/
def runHeader : Text := "function bashi_run() \x7b"

/-- The line above the arms of the entry point. -/
def runCaseHeader : Text := "    case \"$1\" in"

/-- The words that `bashi_help` lists below the heading. -/
def listing? (t : Text) : Option (List Text) := do
  let t ← afterLine? helpHeader t
  let t ← afterLine? listingHeader t
  readUntil (line "        echo") readEcho t

/-- The arms of the `case` command of `bashi_help`, up to the one for any word, each with the text
that it prints. -/
def helpArms? (t : Text) : Option (List Arm) := do
  let t ← afterLine? helpHeader t
  let t ← afterLine? helpCaseHeader t
  readUntil "            * ) " (readArm readPrint) t

/-- The arms of the `case` command of `bashi_run`, up to the one for any word. -/
def runArms? (t : Text) : Option (List Arm) := do
  let t ← afterLine? runHeader t
  let t ← afterLine? runCaseHeader t
  readUntil "        * ) " (readArm readCall) t

/-- The command of the first arm for a word. -/
def commandFor (arms : List Arm) (word : Text) : Option Text :=
  (arms.find? fun a => a.pattern = word).map (·.command)

end Reading

/-- What a shell finds in a dispatcher script: the words that `bashi_help` lists, and the arms of
`bashi_help` and of `bashi_run`. -/
structure Reading where
  listing : List Text
  helpArms : List Arm
  runArms : List Arm
deriving DecidableEq, Repr

namespace Reading

/-- Reads a dispatcher script. -/
def ofText? (t : Text) : Option Reading := do
  let listing ← listing? t
  let helpArms ← helpArms? t
  let runArms ← runArms? t
  return { listing, helpArms, runArms }

/-! ## Parts read back -/

theorem before?_append (t tail : Text) : before? tail (t ++ tail) = some t := by
  unfold before?
  rw [List.reverse_append, Text.rest?_append]
  exact congrArg some (List.reverse_reverse t)

theorem rest?_eq_none_of_ne {c d : Char} (h : c ≠ d) (s u v : Text) :
    Text.rest? (s ++ c :: u) (s ++ d :: v) = none := by
  induction s with
  | nil => exact if_neg h
  | cons b s ih => exact (if_pos rfl).trans ih

theorem readWord_quote_blank (t r : Text) : readWord (quote t ++ ' ' :: r) = some (t, ' ' :: r) :=
  Shell.readWord_quote_append (by simp [Shell.isSeparator]) t

theorem readWord_quote_newline (t r : Text) : readWord (quote t ++ '\n' :: r) = some (t, '\n' :: r) :=
  Shell.readWord_quote_append (by simp [Shell.isSeparator]) t

theorem readPattern_quote (t r : Text) : readPattern (quote t ++ ' ' :: r) = some (t, ' ' :: r) :=
  readWord_quote_blank t r

theorem readCall_append {c : Text} (h : '\n' ∉ c) (t : Text) :
    readCall (line (c ++ ";;".toList) ++ t) = some (Text.dropFinal ' ' c, t) := by
  have hl : (line (c ++ ";;".toList) ++ t).takeWhile (· ≠ '\n') = c ++ ";;".toList := by
    have hc : ∀ a ∈ c ++ ";;".toList, a ≠ '\n' := by
      intro a ha
      rcases List.mem_append.1 ha with ha | ha
      · rintro rfl
        exact h ha
      · rintro rfl
        exact absurd ha (by decide)
    rw [line, List.append_assoc, List.takeWhile_append_of_pos fun a ha => decide_eq_true (hc a ha)]
    exact List.append_nil _
  unfold readCall
  simp only [hl, Text.rest?_append, before?_append, Option.bind_eq_bind, Option.bind_some]
  rfl

theorem readPrint_append (d t : Text) :
    readPrint ("printf '%s\\n' ".toList ++ (quote d ++ (line " ;;".toList ++ t))) = some (d, t) := by
  have hword : readWord (quote d ++ (line " ;;".toList ++ t)) = some (d, line " ;;".toList ++ t) :=
    readWord_quote_blank d _
  unfold readPrint
  simp only [hword, Text.rest?_append, Option.bind_eq_bind, Option.bind_some]
  rfl

theorem readEcho_rowLine (row t : Text) :
    readEcho (line (Fragment.rowLine row) ++ t) = some (row, t) := by
  have hrow : line (Fragment.rowLine row) ++ t =
      "        echo ".toList ++ (quote row ++ (['\n'] ++ t)) := by
    unfold line Fragment.rowLine
    rw [List.append_assoc, List.append_assoc]
  have hword : readWord (quote row ++ (['\n'] ++ t)) = some (row, ['\n'] ++ t) :=
    readWord_quote_newline row t
  unfold readEcho
  rw [hrow, Text.rest?_append, Option.bind_eq_bind, Option.bind_some, hword, Option.bind_eq_bind,
    Option.bind_some]
  rfl

theorem readArm_append {command : Text → Option (Text × Text)} {p n body c t : Text}
    (hp : p.head? = some '\'' ∨ p.head? = some '"')
    (hn : readPattern (p ++ (" ) ".toList ++ body)) = some (n, " ) ".toList ++ body))
    (hc : command body = some (c, t)) (k : Nat) :
    readArm command (List.replicate k ' ' ++ (p ++ (" ) ".toList ++ body))) = some (⟨n, c⟩, t) := by
  have hdrop : (List.replicate k ' ' ++ (p ++ (" ) ".toList ++ body))).dropWhile (· = ' ') =
      p ++ (" ) ".toList ++ body) := by
    rw [List.dropWhile_append_of_pos fun a ha => by simpa using List.eq_of_mem_replicate ha]
    cases p with
    | nil => exact absurd hp (by simp)
    | cons a p =>
      have ha : a ≠ ' ' := by
        rcases hp with h | h <;> obtain rfl := Option.some.inj h <;> decide
      exact List.dropWhile_cons_of_neg (by simpa using ha)
  unfold readArm
  simp only [hdrop, hn, Text.rest?_append, hc, Option.bind_eq_bind, Option.bind_some]
  rfl

/-! ## Sections found -/

theorem append_ne {p l : Text} (h : Text.rest? p l = none) (t : Text) : p ++ t ≠ l := by
  rintro rfl
  rw [Text.rest?_append] at h
  exact absurd h (Option.some_ne_none t)

theorem exists_eq_append {p l : Text} (h : (Text.rest? p l).isSome) : ∃ t, l = p ++ t := by
  obtain ⟨t, ht⟩ := Option.isSome_iff_exists.1 h
  exact ⟨t, Text.rest?_eq_some_iff.1 ht⟩

/-- The lines of the help function between its header and the heading of the listing. -/
def helpBody : List Text := (Fragment.helpLines.drop 2).dropLast

/-- The lines of the entry point between its header and its `case` command. -/
def runBody : List Text := (Fragment.runLines.drop 2).dropLast.dropLast.dropLast

/-- The arms of the entry point that are there whatever the commands are. -/
def builtinArms : List Arm :=
  [⟨"help", "shift; bashi_called_help=true; bashi_help \"$@\""⟩,
   ⟨"debug", "shift; set -o xtrace; bashi_run \"$@\""⟩]

/-- The line of a built-in arm. -/
def builtinLine (a : Arm) : Text :=
  List.replicate 8 ' ' ++ ('"' :: a.pattern ++ ['"'] ++ (" ) ".toList ++ (a.command ++ ";;".toList)))

theorem helpLines_eq :
    Fragment.helpLines = [] :: helpHeader :: (helpBody ++ [listingHeader]) ∧
      listingHeader ∉ helpBody ∧ helpCaseHeader ∉ helpBody ∧ runHeader ∉ Fragment.helpLines := by
  decide +kernel

theorem helpCaseLines_eq :
    Fragment.helpCaseLines = ["        echo".toList, "    else".toList, helpCaseHeader] := by
  decide +kernel

theorem helpEndLines_eq :
    (∃ t, unlines Fragment.helpEndLines = "            * ) ".toList ++ t) ∧
      runHeader ∉ Fragment.helpEndLines :=
  ⟨exists_eq_append (by decide +kernel), by decide +kernel⟩

theorem runLines_eq :
    Fragment.runLines =
        [] :: runHeader :: (runBody ++ runCaseHeader :: builtinArms.map builtinLine) ∧
      runCaseHeader ∉ runBody := by
  decide +kernel

theorem runEndLines_eq : ∃ t, unlines Fragment.runEndLines = "        * ) ".toList ++ t :=
  exists_eq_append (by decide +kernel)

/-- The headers of the two functions are told apart from the settings by their beginnings. -/
theorem headers_apart :
    ∀ l ∈ [helpHeader, runHeader], l ≠ [] ∧ l ∉ Fragment.hookLines ∧
      Text.rest? Fragment.baseCommandCode.tail l = none ∧
      Text.rest? Fragment.helpPreambleCode.tail l = none ∧
      Text.rest? Fragment.exitCodeCode.tail l = none := by
  decide +kernel

theorem header_not_mem_settingLines {l : Text} (hl : l ∈ [helpHeader, runHeader]) (o : Options) :
    l ∉ Fragment.settingLines o := by
  obtain ⟨hnil, hhook, hbase, hheading, hstatus⟩ := headers_apart l hl
  unfold Fragment.settingLines Fragment.baseCommandLine Fragment.helpPreambleLine
    Fragment.exitCodeLine
  rw [List.append_assoc Fragment.exitCodeCode.tail]
  simp only [List.mem_cons, not_or]
  exact ⟨hnil, (append_ne hbase _).symm, (append_ne hheading _).symm, (append_ne hstatus _).symm,
    hhook⟩

theorem header_not_mem_rows {l : Text} (hl : l ∈ [helpCaseHeader, runHeader]) (rows : List Text) :
    l ∉ rows.map Fragment.rowLine := by
  have h : ∀ l ∈ [helpCaseHeader, runHeader], Text.rest? "        echo " l = none := by decide +kernel
  intro hmem
  obtain ⟨t, -, ht⟩ := List.mem_map.1 hmem
  exact append_ne (h l hl) (quote t) ht

theorem runHeader_not_mem_helpArms (targets : List Target) :
    runHeader ∉ targets.map Fragment.helpArmLine := by
  have h : Text.rest? "            " runHeader = none := by decide
  intro hmem
  obtain ⟨t, -, ht⟩ := List.mem_map.1 hmem
  unfold Fragment.helpArmLine at ht
  simp only [List.append_assoc] at ht
  exact append_ne h _ ht

/-- The lines of the entry point and the empty line before it. -/
def runPart (f : Fragment) : List Text :=
  Fragment.runLines ++ (f.targets.map Fragment.runArmLine ++ Fragment.runEndLines)

/-- The lines of the help function from the listing on, and the entry point. -/
def listingPart (f : Fragment) : List Text :=
  f.rows.map Fragment.rowLine ++ (Fragment.helpCaseLines ++
    (f.targets.map Fragment.helpArmLine ++ (Fragment.helpEndLines ++ runPart f)))

theorem lines_eq (f : Fragment) :
    f.lines = (Fragment.settingLines f.options ++ [[]]) ++
      helpHeader :: (helpBody ++ listingHeader :: listingPart f) := by
  unfold Fragment.lines listingPart runPart
  rw [helpLines_eq.1]
  simp only [List.append_assoc, List.cons_append, List.nil_append]

theorem isLine_helpLines :
    (∀ l ∈ helpBody, IsLine l) ∧ IsLine helpHeader ∧ IsLine listingHeader := by
  have h : ∀ l ∈ Fragment.helpLines, IsLine l := fun l hl => (Fragment.plain_helpLines l hl).isLine
  rw [helpLines_eq.1] at h
  simp only [List.forall_mem_cons, List.forall_mem_append] at h
  exact ⟨h.2.2.1, h.2.1, h.2.2.2.1⟩

theorem isLine_runLines :
    (∀ l ∈ runBody, IsLine l) ∧ IsLine runHeader ∧ IsLine runCaseHeader := by
  have h : ∀ l ∈ Fragment.runLines, IsLine l := fun l hl => (Fragment.plain_runLines l hl).isLine
  rw [runLines_eq.1] at h
  simp only [List.forall_mem_cons, List.forall_mem_append] at h
  exact ⟨h.2.2.1, h.2.1, h.2.2.2.1⟩

theorem afterLine?_helpHeader (f : Fragment) :
    afterLine? helpHeader f.text = some (unlines (helpBody ++ listingHeader :: listingPart f)) := by
  rw [Fragment.text_eq_unlines, lines_eq]
  refine Shell.afterLine?_unlines ?_ ?_ isLine_helpLines.2.1 _
  · exact List.forall_mem_append.2 ⟨Fragment.isLine_settingLines _, by decide⟩
  · rw [List.mem_append, not_or]
    exact ⟨header_not_mem_settingLines List.mem_cons_self _, by decide⟩

theorem afterLine?_listingHeader (f : Fragment) :
    afterLine? listingHeader (unlines (helpBody ++ listingHeader :: listingPart f)) =
      some (unlines (listingPart f)) :=
  Shell.afterLine?_unlines isLine_helpLines.1 helpLines_eq.2.1 isLine_helpLines.2.2 _

/-- **The listing is read back** as the rows that were written. -/
theorem listing?_text (f : Fragment) : listing? f.text = some f.rows := by
  have hstop : ∀ row : Text, ∀ r,
      Text.rest? (line "        echo") (line (Fragment.rowLine row) ++ r) = none := by
    intro row r
    exact rest?_eq_none_of_ne (by decide : '\n' ≠ ' ') "        echo" [] _
  unfold listing?
  rw [afterLine?_helpHeader, Option.bind_eq_bind, Option.bind_some, afterLine?_listingHeader,
    Option.bind_some]
  unfold listingPart
  rw [helpCaseLines_eq, Text.unlines_append, Text.unlines, List.flatMap_map]
  exact (Shell.readUntil_flatMap (fun row _ => by simp [line]) (fun row _ r => hstop row r)
    (fun row _ r => readEcho_rowLine row r) _).trans (congrArg some (List.map_id f.rows))

theorem afterLine?_helpCaseHeader (f : Fragment) :
    afterLine? helpCaseHeader (unlines (helpBody ++ listingHeader :: listingPart f)) =
      some (unlines (f.targets.map Fragment.helpArmLine ++ (Fragment.helpEndLines ++ runPart f))) := by
  have hlines : helpBody ++ listingHeader :: listingPart f =
      (helpBody ++ listingHeader ::
        (f.rows.map Fragment.rowLine ++ ["        echo".toList, "    else".toList])) ++
        helpCaseHeader ::
          (f.targets.map Fragment.helpArmLine ++ (Fragment.helpEndLines ++ runPart f)) := by
    unfold listingPart
    rw [helpCaseLines_eq]
    simp only [List.append_assoc, List.cons_append, List.nil_append]
  obtain ⟨hbody, -, hlisting⟩ := isLine_helpLines
  rw [hlines]
  refine Shell.afterLine?_unlines ?_ ?_ (by decide) _
  · simp only [List.forall_mem_append, List.forall_mem_cons, List.forall_mem_map]
    exact ⟨hbody, hlisting, fun row _ => Fragment.isLine_rowLine row, by decide, by decide, by simp⟩
  · simp only [List.mem_append, List.mem_cons, not_or]
    exact ⟨helpLines_eq.2.2.1, by decide, header_not_mem_rows List.mem_cons_self f.rows, by decide,
      by decide, List.not_mem_nil⟩

theorem readArm_helpArmLine (t : Target) (r : Text) :
    readArm readPrint (line (Fragment.helpArmLine t) ++ r) = some (⟨t.name, t.documentation⟩, r) := by
  have hline : line (Fragment.helpArmLine t) ++ r = List.replicate 12 ' ' ++ (quote t.name ++
      (" ) ".toList ++ ("printf '%s\\n' ".toList ++ (quote t.documentation ++
        (line " ;;".toList ++ r))))) := by
    have hcode : " ) printf '%s\\n' ".toList = " ) ".toList ++ "printf '%s\\n' ".toList := rfl
    unfold Fragment.helpArmLine line
    rw [hcode]
    simp only [List.append_assoc]
    rfl
  rw [hline]
  exact readArm_append (Or.inl rfl) (readPattern_quote t.name _)
    (readPrint_append t.documentation r) 12

/-- **The documentation is read back**: the arms of the help function, each with its text. -/
theorem helpArms?_text (f : Fragment) :
    helpArms? f.text = some (f.targets.map fun t => ⟨t.name, t.documentation⟩) := by
  have hstop : ∀ t : Target, ∀ r,
      Text.rest? "            * ) " (line (Fragment.helpArmLine t) ++ r) = none := by
    intro t r
    unfold Fragment.helpArmLine
    simp only [line, List.append_assoc]
    exact rest?_eq_none_of_ne (by decide : '*' ≠ '\'') "            " " ) ".toList _
  obtain ⟨r, hr⟩ := helpEndLines_eq.1
  unfold helpArms?
  rw [afterLine?_helpHeader, Option.bind_eq_bind, Option.bind_some, afterLine?_helpCaseHeader,
    Option.bind_some, Text.unlines_append, Text.unlines_append, hr, Text.unlines, List.flatMap_map,
    List.append_assoc]
  exact Shell.readUntil_flatMap (fun t _ => by simp [line]) (fun t _ r => hstop t r)
    (fun t _ r => readArm_helpArmLine t r) _

theorem afterLine?_runHeader (f : Fragment) :
    afterLine? runHeader f.text = some (unlines (runBody ++ runCaseHeader ::
      (builtinArms.map builtinLine ++
        (f.targets.map Fragment.runArmLine ++ Fragment.runEndLines)))) := by
  have hlines : f.lines = (Fragment.settingLines f.options ++ (Fragment.helpLines ++
      (f.rows.map Fragment.rowLine ++ (Fragment.helpCaseLines ++
        (f.targets.map Fragment.helpArmLine ++ (Fragment.helpEndLines ++ [[]])))))) ++
      runHeader :: (runBody ++ runCaseHeader :: (builtinArms.map builtinLine ++
        (f.targets.map Fragment.runArmLine ++ Fragment.runEndLines))) := by
    unfold Fragment.lines
    rw [runLines_eq.1]
    simp only [List.append_assoc, List.cons_append, List.nil_append]
  have hhelp : ∀ l ∈ Fragment.helpLines, IsLine l :=
    fun l hl => (Fragment.plain_helpLines l hl).isLine
  have hend : ∀ l ∈ Fragment.helpEndLines, IsLine l :=
    fun l hl => (Fragment.plain_helpEndLines l hl).isLine
  have hcase : ∀ l ∈ Fragment.helpCaseLines, IsLine l :=
    fun l hl => (Fragment.plain_helpCaseLines l hl).isLine
  have hnot : runHeader ∉ Fragment.helpCaseLines := by
    rw [helpCaseLines_eq]
    decide
  rw [Fragment.text_eq_unlines, hlines]
  refine Shell.afterLine?_unlines ?_ ?_ isLine_runLines.2.1 _
  · simp only [List.forall_mem_append, List.forall_mem_map]
    exact ⟨Fragment.isLine_settingLines _, hhelp, fun row _ => Fragment.isLine_rowLine row, hcase,
      fun t _ => Fragment.isLine_helpArmLine t, hend, by decide⟩
  · simp only [List.mem_append, not_or]
    exact ⟨header_not_mem_settingLines (List.mem_cons_of_mem _ List.mem_cons_self) _,
      helpLines_eq.2.2.2, header_not_mem_rows (List.mem_cons_of_mem _ List.mem_cons_self) _, hnot,
      runHeader_not_mem_helpArms _, helpEndLines_eq.2, by decide⟩

theorem readArm_runArmLine {t : Target} (h : '\n' ∉ t.functionName) (r : Text) :
    readArm readCall (line (Fragment.runArmLine t) ++ r) = some (⟨t.name, t.functionName⟩, r) := by
  have hline : line (Fragment.runArmLine t) ++ r = List.replicate 8 ' ' ++ (quote t.name ++
      (" ) ".toList ++ (line (t.functionName ++ [' '] ++ ";;".toList) ++ r))) := by
    have hcode : " ;;".toList = [' '] ++ ";;".toList := rfl
    unfold Fragment.runArmLine line
    rw [hcode]
    simp only [List.append_assoc]
    rfl
  have hcall : readCall (line (t.functionName ++ [' '] ++ ";;".toList) ++ r) =
      some (t.functionName, r) := by
    have hblank : '\n' ∉ t.functionName ++ [' '] := by
      rw [List.mem_append, not_or]
      exact ⟨h, by decide⟩
    rw [readCall_append hblank, Text.dropFinal_append_self]
  rw [hline]
  exact readArm_append (Or.inl rfl) (readPattern_quote t.name _) hcall 8

theorem readArm_builtinLine {a : Arm} (hp : a.pattern.all Char.isAlpha) (hc : '\n' ∉ a.command)
    (hblank : a.command.getLast? ≠ some ' ') (r : Text) :
    readArm readCall (line (builtinLine a) ++ r) = some (a, r) := by
  have hline : line (builtinLine a) ++ r = List.replicate 8 ' ' ++ ('"' :: a.pattern ++ ['"'] ++
      (" ) ".toList ++ (line (a.command ++ ";;".toList) ++ r))) := by
    unfold builtinLine line
    simp only [List.append_assoc]
  have hpattern : ∀ t, readPattern ('"' :: a.pattern ++ ['"'] ++ t) = some (a.pattern, t) := by
    intro t
    have htake : (a.pattern ++ ['"'] ++ t).takeWhile Char.isAlpha = a.pattern := by
      rw [List.append_assoc, List.takeWhile_append_of_pos (List.all_eq_true.1 hp)]
      exact List.append_nil _
    have hread : readPattern ('"' :: a.pattern ++ ['"'] ++ t) =
        (Text.rest? ((a.pattern ++ ['"'] ++ t).takeWhile Char.isAlpha ++ ['"'])
          (a.pattern ++ ['"'] ++ t)).map
            fun r => ((a.pattern ++ ['"'] ++ t).takeWhile Char.isAlpha, r) := rfl
    rw [hread, htake, Text.rest?_append, Option.map_some]
  have hcall : readCall (line (a.command ++ ";;".toList) ++ r) = some (a.command, r) := by
    rw [readCall_append hc, Text.dropFinal_of_ne hblank]
  rw [hline]
  exact readArm_append (Or.inr rfl) (hpattern _) hcall 8

/-- **The calls are read back**: the arms of the entry point, first those for `help` and `debug`,
then each command with its function. -/
theorem runArms?_text {f : Fragment} (h : ∀ t ∈ f.targets, '\n' ∉ t.functionName) :
    runArms? f.text = some (builtinArms ++ f.targets.map fun t => ⟨t.name, t.functionName⟩) := by
  have hbuiltin : ∀ a ∈ builtinArms, a.pattern.all Char.isAlpha ∧ '\n' ∉ a.command ∧
      a.command.getLast? ≠ some ' ' := by decide +kernel
  have hstop : ∀ (c : Char) (t : Text), '*' ≠ c →
      Text.rest? "        * ) " ("        ".toList ++ c :: t) = none := by
    intro c t hc
    exact rest?_eq_none_of_ne hc "        " " ) ".toList t
  have hstopBuiltin : ∀ a r, Text.rest? "        * ) " (line (builtinLine a) ++ r) = none := by
    intro a r
    exact hstop '"' _ (by decide)
  have hstopCommand : ∀ t r,
      Text.rest? "        * ) " (line (Fragment.runArmLine t) ++ r) = none := by
    intro t r
    unfold Fragment.runArmLine line
    simp only [List.append_assoc]
    exact hstop '\'' _ (by decide)
  obtain ⟨r, hr⟩ := runEndLines_eq
  unfold runArms?
  rw [afterLine?_runHeader, Option.bind_eq_bind, Option.bind_some,
    Shell.afterLine?_unlines isLine_runLines.1 runLines_eq.2 isLine_runLines.2.2, Option.bind_some,
    Text.unlines_append, Text.unlines_append, hr]
  simp only [Text.unlines, List.flatMap_map]
  rw [Shell.readUntil_flatMap_append (fun a _ => by simp [line]) (fun a _ r => hstopBuiltin a r)
      (fun a ha r => readArm_builtinLine (hbuiltin a ha).1 (hbuiltin a ha).2.1
        (hbuiltin a ha).2.2 r),
    Shell.readUntil_flatMap (fun t _ => by simp [line]) (fun t _ r => hstopCommand t r)
      (fun t ht r => readArm_runArmLine (h t ht) r), Option.map_some, List.map_id']

/-- What there is to find in the script of a fragment. -/
def ofFragment (f : Fragment) : Reading where
  listing := f.rows
  helpArms := f.targets.map fun t => ⟨t.name, t.documentation⟩
  runArms := builtinArms ++ f.targets.map fun t => ⟨t.name, t.functionName⟩

/-- **A script is read back**, unless the name of a function breaks its line. -/
theorem ofText?_text {f : Fragment} (h : ∀ t ∈ f.targets, '\n' ∉ t.functionName) :
    ofText? f.text = some (ofFragment f) := by
  unfold ofText?
  rw [listing?_text, helpArms?_text, runArms?_text h]
  rfl

end Reading

end ShellDispatch.Dispatcher
