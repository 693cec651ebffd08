import ShellDispatch.Proofs.Script.Commands
import ShellDispatch.Script.Layout

/-!
# Scripts laid out anew

The layout of the commands of a script is a script with the same commands (`scanLines_layout`). Each
of its definitions says what it was written from (`ofText_definitionLine`), and so does each comment
(`ofText_comment`), because identifiers and documentation are kept trimmed. Only the numbers of the
lines are new.
-/

namespace ShellDispatch.Script

/-! ## Lines of a layout -/

theorem ofText_definitionLine {id : Text} (h : '(' ∉ id) :
    Line.ofText (definitionLine (Command.functionMark ++ id)) = .definition id := by
  have hline : definitionLine (Command.functionMark ++ id) = Line.definitionMark ++ (id ++ ['(']) := by
    unfold definitionLine
    rw [List.append_assoc, List.append_assoc]
    rfl
  have hid : (id ++ ['(']).takeWhile (· ≠ '(') = id := by
    have hne : ∀ c ∈ id, decide (c ≠ '(') = true := by
      intro c hc
      rw [decide_eq_true_eq]
      rintro rfl
      exact h hc
    rw [List.takeWhile_append_of_pos hne]
    exact List.append_nil id
  unfold Line.ofText
  rw [hline, Text.rest?_append]
  dsimp only
  rw [if_pos (by simp), hid]

theorem ofText_comment {t : Text} (h : Text.trim t = t) :
    Line.ofText ("# ".toList ++ t) = .comment t := by
  have hblank : Text.IsBlank [' '] := by decide
  have htrim : Text.trim ("# ".toList ++ t) = '#' :: Text.trimEnd (' ' :: t) :=
    Text.trim_cons (by decide) (' ' :: t)
  have hcomment : IsComment ("# ".toList ++ t) := by
    unfold IsComment
    rw [htrim, List.head?_cons]
  have htext : commentText ("# ".toList ++ t) = t := by
    unfold commentText
    rw [htrim, List.tail_cons, Text.trim_trimEnd]
    exact (Text.trim_blank_append hblank t).trans h
  rw [Line.ofText_of_isComment hcomment, htext]

/-! ## The outline of a layout -/

variable {comments lines : List Text} {number : Nat}

/-- Comments at the start of lines are read back, up to the comments that follow them. -/
theorem leadingComments_comments (h : ∀ t ∈ comments, Text.trim t = t) :
    leadingComments (comments.map (fun t => "# ".toList ++ t) ++ lines) =
      comments ++ leadingComments lines := by
  induction comments with
  | nil => rfl
  | cons t comments ih =>
    obtain ⟨ht, hcomments⟩ := List.forall_mem_cons.1 h
    rw [List.map_cons, List.cons_append, leadingComments, ofText_comment ht]
    dsimp only
    rw [ih hcomments, List.cons_append]

/-- Comments define nothing. -/
theorem outline_comments (h : ∀ t ∈ comments, Text.trim t = t) :
    outline number (comments.map (fun t => "# ".toList ++ t) ++ lines) =
      outline (number + comments.length) lines := by
  induction comments generalizing number with
  | nil => rfl
  | cons t comments ih =>
    obtain ⟨ht, hcomments⟩ := List.forall_mem_cons.1 h
    rw [List.map_cons, List.cons_append, outline, ofText_comment ht]
    dsimp only
    rw [ih hcomments, List.length_cons]
    congr 1
    omega

/-- **One command of a layout** is found again, on the line of its definition. -/
theorem outline_block {c : Command} (h : c.IsFound) (hlines : leadingComments lines = []) :
    outline number (definitionLine c.functionName :: (commentLines c.documentation ++ lines)) =
      { c with line := number } ::
        outline (number + 1 + (commentLines c.documentation).length) lines := by
  obtain ⟨id, htrim, hparen, -, hname, hfunction⟩ := h.names
  have hcommand : ∀ d : Text, ({ Command.define id number with documentation := d } : Command) =
      { c with line := number, documentation := d } := by
    intro d
    unfold Command.define
    rw [htrim, ← hname, ← hfunction]
  have hline : Line.ofText (definitionLine c.functionName) = .definition id := by
    rw [hfunction]
    exact ofText_definitionLine hparen
  rw [outline, hline]
  dsimp only
  rw [hcommand]
  unfold commentLines
  by_cases hd : c.documentation = []
  · rw [if_pos hd, List.nil_append, hlines, hd]
    rfl
  · obtain ⟨hfirst, htexts⟩ := h.documentation hd
    have hagain : documentationOf (Text.pieces c.documentation) = c.documentation := by
      obtain ⟨p, ps, hp⟩ := List.exists_cons_of_ne_nil (Text.pieces_ne_nil c.documentation)
      have hsays : p ≠ [] := by
        rintro rfl
        exact hfirst (hp ▸ rfl)
      unfold documentationOf
      rw [hp, List.dropWhile_cons_of_neg (by simpa using hsays), ← hp]
      exact List.intercalate_splitOn '\n'
    rw [if_neg hd, leadingComments_comments htexts, outline_comments htexts, hlines, List.append_nil,
      hagain, List.length_map]

variable {commands : List Command}

theorem leadingComments_layout (h : ∀ c ∈ commands, c.IsFound) :
    leadingComments (layout commands) = [] := by
  cases commands with
  | nil => rfl
  | cons c commands =>
    obtain ⟨id, -, hparen, -, -, hfunction⟩ := (h c List.mem_cons_self).names
    rw [layout, List.flatMap_cons, List.cons_append, leadingComments, hfunction,
      ofText_definitionLine hparen]

/-- The outline of a layout: each command is on the line after the layout of those before it. -/
theorem outline_layout (h : ∀ c ∈ commands, c.IsFound) :
    outline number (layout commands) = commands.mapIdx fun i c =>
      { c with line := (layout (commands.take i)).length + number } := by
  induction commands generalizing number with
  | nil => rfl
  | cons c commands ih =>
    obtain ⟨hc, hcommands⟩ := List.forall_mem_cons.1 h
    have hlayout : ∀ cs : List Command, layout (c :: cs) =
        definitionLine c.functionName :: (commentLines c.documentation ++ layout cs) := fun _ => rfl
    rw [hlayout, outline_block hc (leadingComments_layout hcommands), ih hcommands, List.mapIdx_cons]
    congr 1
    · simp [layout]
    · congr 1
      funext i d
      rw [List.take_succ_cons, hlayout, List.length_cons, List.length_append]
      congr 1
      omega

theorem not_isMalformed_of_mem_layout (h : ∀ c ∈ commands, c.IsFound) {line : Text}
    (hline : line ∈ layout commands) : ¬ IsMalformed line := by
  obtain ⟨c, hc, hmem⟩ := List.mem_flatMap.1 hline
  obtain ⟨id, -, hparen, -, -, hfunction⟩ := (h c hc).names
  rw [← Line.ofText_eq_malformed_iff]
  rcases List.mem_cons.1 hmem with rfl | hmem
  · rw [hfunction, ofText_definitionLine hparen]
    exact Line.noConfusion
  · unfold commentLines at hmem
    split at hmem
    · exact absurd hmem List.not_mem_nil
    · rename_i hd
      obtain ⟨t, ht, rfl⟩ := List.mem_map.1 hmem
      rw [ofText_comment (((h c hc).documentation hd).2 t ht)]
      exact Line.noConfusion

/-! ## The commands of a layout -/

/-- The commands on the lines on which their layout has them. -/
def laidOut (commands : List Command) : List Command :=
  commands.mapIdx fun i c => { c with line := (layout (commands.take i)).length + 1 }

/-- **A layout loses nothing.** The layout of the commands of a source has the same commands, with
the names, the functions and the documentation that they had; only their lines are new. -/
theorem scanLines_layout {b : Bytes} {commands : List Command}
    (h : Source.commands { bytes := b } = .ok commands) :
    scanLines (layout commands) = .ok (laidOut commands) := by
  have hfound := isFound_of_commands h
  have hmalformed : malformedAt? 1 (layout commands) = none :=
    malformedAt?_eq_none_iff.2 fun _ hline => not_isMalformed_of_mem_layout hfound hline
  rw [scanLines_eq_outline, hmalformed, outline_layout hfound]
  rfl

/-- A script with blank comments, in two commands on lines two and seven. -/
def untidyScript : Text := "echo\nfunction cmd_a_b ()\r\n#\n## one\n#\n#\nfunction cmd_c("

/-- Blank comments before the documentation are not laid out, those inside it and after it are. -/
theorem scanLines_layout_of_untidyScript :
    Source.commands { bytes := Utf8.encode untidyScript } =
        .ok [⟨"a-b", "cmd_a_b", 2, "# one\n\n"⟩, ⟨"c", "cmd_c", 7, ""⟩] ∧
      scanLines ["function cmd_a_b(".toList, "# # one".toList, "# ".toList, "# ".toList,
        "function cmd_c(".toList] =
        .ok [⟨"a-b", "cmd_a_b", 1, "# one\n\n"⟩, ⟨"c", "cmd_c", 5, ""⟩] := by
  have h : Source.commands { bytes := Utf8.encode untidyScript } =
      .ok [⟨"a-b", "cmd_a_b", 2, "# one\n\n"⟩, ⟨"c", "cmd_c", 7, ""⟩] :=
    Source.commands_encode_eq_ok_iff.2 (by decide +kernel)
  have hlines : layout [⟨"a-b", "cmd_a_b", 2, "# one\n\n"⟩, ⟨"c", "cmd_c", 7, ""⟩] =
      ["function cmd_a_b(".toList, "# # one".toList, "# ".toList, "# ".toList,
        "function cmd_c(".toList] := by decide +kernel
  have hnumbers : laidOut [⟨"a-b", "cmd_a_b", 2, "# one\n\n"⟩, ⟨"c", "cmd_c", 7, ""⟩] =
      [⟨"a-b", "cmd_a_b", 1, "# one\n\n"⟩, ⟨"c", "cmd_c", 5, ""⟩] := by decide +kernel
  have hagain := scanLines_layout h
  rw [hlines, hnumbers] at hagain
  exact ⟨h, hagain⟩

end ShellDispatch.Script
