import ShellDispatch.Proofs.Command.Documentation
import ShellDispatch.Proofs.Query.Answer

/-!
# The listing of a script

From the bytes of a script to the lines of its listing: each definition has one line, in order, with the
first comment of its block that says something (`listing_commands`). Whatever the comments are, they put
no newline into the listing, since a summary is part of one line of the script.
-/

namespace ShellDispatch.Script

/-! ## Comments below a definition -/

variable {l : Text} {lines before after : List Text} {i : Nat}

/-- The comments directly below the line at an index. -/
def block (lines : List Text) (i : Nat) : List Text :=
  (lines.drop (i + 1)).takeWhile fun line => IsComment line

/-- What follows the first `#` of a line. -/
def afterHash (l : Text) : Text := (l.dropWhile (· ≠ '#')).tail

/-- The text of a comment is what follows its first `#`, without the blanks around it. -/
theorem commentText_eq (h : IsComment l) : commentText l = Text.trim (afterHash l) := by
  obtain ⟨t, ht⟩ : ∃ t, Text.trim l = '#' :: t := List.head?_eq_some_iff.1 h
  obtain ⟨blanks, -, hend⟩ := Text.exists_eq_trimEnd_append (Text.trimStart l)
  have hstart : Text.trimStart l = '#' :: (t ++ blanks) := by
    rw [hend, show Text.trimEnd (Text.trimStart l) = '#' :: t from ht, List.cons_append]
  -- the blanks before the first visible character hide no other `#`
  have hblank : ∀ c ∈ l.takeWhile Text.isBlank, decide (c ≠ '#') = true := by
    intro c hc
    rw [decide_eq_true_eq]
    rintro rfl
    exact absurd (List.mem_takeWhile_imp hc) (by decide)
  have hafter : afterHash l = t ++ blanks := by
    unfold afterHash
    rw [← List.takeWhile_append_dropWhile (p := Text.isBlank) (l := l),
      List.dropWhile_append_of_pos hblank, show l.dropWhile Text.isBlank = _ from hstart,
      List.dropWhile_cons_of_neg (by decide), List.tail_cons]
  have htrim : Text.trim l = '#' :: Text.trimEnd (t ++ blanks) := by
    unfold Text.trim
    rw [hstart, Text.trimEnd_cons (by decide)]
  unfold commentText
  rw [htrim, List.tail_cons, Text.trim_trimEnd, hafter]

theorem isComment_of_mem_block (h : l ∈ block lines i) : IsComment l := by
  have hcomment := List.mem_takeWhile_imp (p := fun line => decide (IsComment line)) h
  exact of_decide_eq_true hcomment

theorem commentText_eq_nil_iff (h : l ∈ block lines i) :
    commentText l = [] ↔ Text.IsBlank (afterHash l) := by
  rw [commentText_eq (isComment_of_mem_block h), Text.trim_eq_nil_iff]

/-! ## The summary of a definition -/

theorem summary_commandAt_of_find? {t : Text} (hlines : ∀ l ∈ lines, '\n' ∉ l)
    (h : (commentsBelow lines i).find? (· ≠ []) = some t) : (commandAt lines i).summary = t := by
  obtain ⟨hnewline, htrim⟩ := trimmed_of_mem_commentsBelow hlines (List.mem_of_find?_eq_some h)
  obtain ⟨raw, hraw⟩ := exists_commandAt_eq lines i
  rw [hraw]
  exact Command.summary_addDocs_of_find? raw (i + 1) h hnewline htrim

/-- A definition has no summary exactly if every comment of its block is blank. -/
theorem summary_commandAt_eq_nil_iff (hlines : ∀ l ∈ lines, '\n' ∉ l) :
    (commandAt lines i).summary = [] ↔ ∀ l ∈ block lines i, Text.IsBlank (afterHash l) := by
  have hblank : (∀ l ∈ block lines i, Text.IsBlank (afterHash l)) ↔
      (commentsBelow lines i).find? (· ≠ []) = none := by
    rw [List.find?_eq_none, show commentsBelow lines i = (block lines i).map commentText from rfl,
      List.forall_mem_map]
    refine forall₂_congr fun l hl => ?_
    rw [← commentText_eq_nil_iff hl]
    simp
  rw [hblank]
  cases hfind : (commentsBelow lines i).find? (· ≠ []) with
  | none =>
    obtain ⟨raw, hraw⟩ := exists_commandAt_eq lines i
    rw [hraw]
    exact iff_of_true (Command.summary_addDocs_of_find?_eq_none raw (i + 1) hfind) rfl
  | some t =>
    have ht : t ≠ [] := by simpa using List.find?_some hfind
    rw [summary_commandAt_of_find? hlines hfind]
    exact iff_of_false ht nofun

/-- The summary of a definition is the first comment of its block that says something. -/
theorem summary_commandAt (hlines : ∀ l ∈ lines, '\n' ∉ l)
    (hblock : block lines i = before ++ l :: after)
    (hbefore : ∀ m ∈ before, Text.IsBlank (afterHash m)) (hl : ¬ Text.IsBlank (afterHash l)) :
    (commandAt lines i).summary = Text.trim (afterHash l) := by
  have hmem : ∀ m ∈ before ++ [l], m ∈ block lines i := by
    intro m hm
    rw [hblock, List.append_cons]
    exact List.mem_append_left after hm
  have hlblock : l ∈ block lines i := hmem l (by simp)
  have hfind : (commentsBelow lines i).find? (· ≠ []) = some (commentText l) := by
    refine List.find?_eq_some_iff_append.2 ⟨?_, before.map commentText, after.map commentText, ?_, ?_⟩
    · simpa using mt (commentText_eq_nil_iff hlblock).1 hl
    · show (block lines i).map commentText = _
      rw [hblock, List.map_append, List.map_cons]
    · rw [List.forall_mem_map]
      intro m hm
      simpa using (commentText_eq_nil_iff (hmem m (by simp [hm]))).2 (hbefore m hm)
  rw [summary_commandAt_of_find? hlines hfind, commentText_eq (isComment_of_mem_block hlblock)]

/-! ## Rows of definitions -/

/-- The text is the row of the definition at an index: its name and, in a column that starts after `w`
characters, the first comment of its block that says something, if there is one. -/
structure ShowsDefinition (lines : List Text) (w i : Nat) (t : Text) : Prop where
  bare : (∀ l ∈ block lines i, Text.IsBlank (afterHash l)) →
    t = "    ".toList ++ (commandAt lines i).name
  summarized : ∀ before l after, block lines i = before ++ l :: after →
    (∀ m ∈ before, Text.IsBlank (afterHash m)) → ¬ Text.IsBlank (afterHash l) →
    t = "    ".toList ++ (commandAt lines i).name ++
      List.replicate (w - (commandAt lines i).name.length) ' ' ++ " - ".toList ++
      Text.trim (afterHash l)

theorem showsDefinition_of_row {w : Nat} {t : Text} (hlines : ∀ l ∈ lines, '\n' ∉ l)
    (h : Listing.row w (commandAt lines i) = .ok t) : ShowsDefinition lines w i t where
  bare := by
    intro hblank
    unfold Listing.row at h
    rw [if_pos ((summary_commandAt_eq_nil_iff hlines).2 hblank)] at h
    exact (Except.ok.inj h).symm
  summarized := by
    intro before l after hblock hbefore hl
    have hsummary := summary_commandAt hlines hblock hbefore hl
    have hne : (commandAt lines i).summary ≠ [] := by
      rw [hsummary]
      exact mt Text.trim_eq_nil_iff.1 hl
    unfold Listing.row at h
    rw [if_neg hne, hsummary] at h
    split at h
    · exact absurd h nofun
    · rw [← Except.ok.inj h]
      simp only [Listing.fill, List.append_assoc]
      rfl

/-! ## The listing -/

/-- **The listing of a script** with commands has one row for each definition, in order, and an empty
line. A row has no newline of its own, so the rows are what stands between the newlines, one fewer than
there are newlines. It shows the name of its definition and, if a comment of the block says something,
the first one that does. Below an instruction there is the same listing. -/
theorem listing_commands {b : Bytes} {commands : List Command}
    (h : Source.commands { bytes := b } = .ok commands) (hne : commands ≠ [])
    (halign : Listing.CanAlign commands) :
    ∃ lines rows : List Text, Yields none b (lines.map .ofText) ∧
      commands = (definitionIndices lines).map (commandAt lines) ∧
      List.Forall₂ (ShowsDefinition lines (Listing.width commands)) (definitionIndices lines) rows ∧
      (∀ i ∈ definitionIndices lines, (commandAt lines i).summary ≠ [] ↔
        ∃ l ∈ block lines i, ¬ Text.IsBlank (afterHash l)) ∧
      rows.length = commands.length ∧ (∀ t ∈ rows, '\n' ∉ t) ∧
      (Text.unlines rows ++ Text.line []).count '\n' = commands.length + 1 ∧
      Text.pieces (Text.unlines rows ++ Text.line []) = rows ++ [[], []] ∧
      Answer.Writes (Answer.help commands .listing) (Text.unlines rows ++ Text.line []) (.ok ()) ∧
      Answer.Writes (Answer.help commands .unspecified)
        (Text.line Answer.instruction ++ (Text.unlines rows ++ Text.line [])) (.ok ()) := by
  obtain ⟨lines, hyields, hlines, hscan⟩ := Source.exists_yields_of_commands h
  obtain ⟨-, hcommands⟩ := scanLines_eq_ok_iff.1 hscan
  obtain ⟨rows, hrows⟩ := Listing.exists_rows_eq_ok_iff.2 halign
  have hshows : List.Forall₂ (ShowsDefinition lines (Listing.width commands))
      (definitionIndices lines) rows := by
    have hrow : List.Forall₂ (fun c t => Listing.row (Listing.width commands) c = .ok t)
        ((definitionIndices lines).map (commandAt lines)) rows := by
      rw [← hcommands]
      exact mapM_eq_ok_iff.1 hrows
    rw [List.forall₂_map_left_iff] at hrow
    exact hrow.imp fun i t ht => showsDefinition_of_row hlines ht
  have hlength : rows.length = commands.length := by
    rw [hcommands, List.length_map]
    exact hshows.length_eq.symm
  have hnewline : ∀ t ∈ rows, '\n' ∉ t :=
    Listing.newline_not_mem_rows (fun c hc => (isFound_of_commands h c hc).newline_not_mem.1) hrows
  have hlisting := Answer.writes_listing hne hrows
  refine ⟨lines, rows, hyields, hcommands, hshows, ?_, hlength, hnewline, ?_, ?_, hlisting, ?_⟩
  · intro i _
    rw [Ne, summary_commandAt_eq_nil_iff hlines]
    simp only [not_forall, exists_prop]
  · rw [List.count_append, Text.count_newline_unlines hnewline, hlength]
    rfl
  · rw [Text.pieces_unlines_append, Text.flatMap_pieces_of_not_mem hnewline]
    rfl
  · exact Answer.writes_bind (Answer.writes_printLine Answer.instruction) hlisting

/-- The first comment of the first definition is blank, and so is the only one of the second. -/
theorem listing_commands_of_two :
    Source.commands
        { bytes := Utf8.encode "function cmd_a_b(\n#\n # one \r\n#two\nfunction cmd_c(\n#\t" } =
        .ok [⟨"a-b", "cmd_a_b", 1, "one\ntwo"⟩, ⟨"c", "cmd_c", 5, []⟩] ∧
      ∃ t, t.count '\n' = 3 ∧
        Answer.Writes (Answer.help
          [⟨"a-b", "cmd_a_b", 1, "one\ntwo"⟩, ⟨"c", "cmd_c", 5, []⟩] .listing) t (.ok ()) ∧
        Answer.Writes (Answer.help
          [⟨"a-b", "cmd_a_b", 1, "one\ntwo"⟩, ⟨"c", "cmd_c", 5, []⟩] .unspecified)
          ("Specify a command to see more information (if available).\n".toList ++ t) (.ok ()) := by
  have h : Source.commands
      { bytes := Utf8.encode "function cmd_a_b(\n#\n # one \r\n#two\nfunction cmd_c(\n#\t" } =
        .ok [⟨"a-b", "cmd_a_b", 1, "one\ntwo"⟩, ⟨"c", "cmd_c", 5, []⟩] :=
    Source.commands_encode_eq_ok_iff.2 (by decide +kernel)
  obtain ⟨-, rows, -, -, -, -, -, -, hcount, -, hlisting, hbelow⟩ :=
    listing_commands h (by decide) (Or.inl (by decide))
  exact ⟨h, Text.unlines rows ++ Text.line [], hcount, hlisting, hbelow⟩

end ShellDispatch.Script
