import ShellDispatch.Proofs.Script.Commands

/-!
# Documentation text by text

The documentation of a command is put together one text at a time, without knowing which texts will
follow. Empty texts at the start leave no trace; the first text that says something is the summary from
then on (`documentation_summary_addDocs`). It has to be trimmed for that: a carriage return at its end
would be part of the summary only until another text follows.
-/

namespace ShellDispatch

/-! ## The first line of several -/

namespace Text

variable {p : Text}

/-- A trimmed text has no carriage return at its end that a line ending could take. -/
theorem dropFinal_return_of_trim (h : trim p = p) : dropFinal '\r' p = p := by
  apply dropFinal_of_ne
  intro hlast
  rw [← h] at hlast
  have hblank := isBlank_of_getLast?_trim hlast
  rw [isBlank_return] at hblank
  exact absurd hblank nofun

theorem firstLine_append_newline (h : '\n' ∉ p) (t : Text) :
    firstLine (p ++ '\n' :: t) = dropFinal '\r' p := by
  have hne : ∀ c ∈ p, decide (c ≠ '\n') = true := by
    intro c hc
    rw [decide_eq_true_eq]
    rintro rfl
    exact h hc
  unfold firstLine
  rw [if_pos (by simp), List.takeWhile_append_of_pos hne, List.takeWhile_cons_of_neg (by decide),
    List.append_nil]

/-- The first line of joined texts is the first text, whatever the others are. -/
theorem firstLine_join_cons (hnewline : '\n' ∉ p) (htrim : trim p = p) (ps : List Text) :
    firstLine (join (p :: ps)) = p := by
  rw [join_cons]
  cases ps with
  | nil =>
    rw [List.flatMap_nil, List.append_nil]
    exact firstLine_of_not_mem hnewline
  | cons q qs =>
    rw [List.flatMap_cons, List.cons_append, firstLine_append_newline hnewline,
      dropFinal_return_of_trim htrim]

end Text

namespace Script

variable {texts : List Text} {p : Text}

theorem documentationOf_of_find?_eq_none (h : texts.find? (· ≠ []) = none) :
    documentationOf texts = [] := by
  have hempty : texts.dropWhile (· = []) = [] := by
    rw [List.dropWhile_eq_nil_iff]
    intro t ht
    simpa using List.find?_eq_none.1 h t ht
  unfold documentationOf
  rw [hempty]
  rfl

/-- Documentation begins with the first text that says something. -/
theorem exists_documentationOf_eq_join (h : texts.find? (· ≠ []) = some p) :
    ∃ rest, documentationOf texts = Text.join (p :: rest) := by
  obtain ⟨hp, before, rest, rfl, hbefore⟩ := List.find?_eq_some_iff_append.1 h
  refine ⟨rest, ?_⟩
  unfold documentationOf
  rw [List.dropWhile_append_of_pos (by simpa using hbefore),
    List.dropWhile_cons_of_neg (by simpa using hp)]

theorem documentationOf_ne_nil_of_find? (h : texts.find? (· ≠ []) = some p) :
    documentationOf texts ≠ [] := by
  obtain ⟨rest, hjoin⟩ := exists_documentationOf_eq_join h
  have hp : p ≠ [] := by simpa using List.find?_some h
  rw [hjoin, Text.join_cons]
  exact List.append_ne_nil_of_left_ne_nil hp _

end Script

/-! ## Summaries -/

namespace Command

variable {texts : List Text} {p : Text}

theorem addDocs_append (c : Command) (texts more : List Text) :
    c.addDocs (texts ++ more) = (c.addDocs texts).addDocs more := List.foldl_append

theorem summary_addDocs_of_find?_eq_none (raw : Text) (number : Nat)
    (h : texts.find? (· ≠ []) = none) : ((define raw number).addDocs texts).summary = [] := by
  rw [addDocs_define, summary, Script.documentationOf_of_find?_eq_none h]
  rfl

/-- **The first text that says something** is the summary, whatever texts follow it. -/
theorem summary_addDocs_of_find? (raw : Text) (number : Nat) (h : texts.find? (· ≠ []) = some p)
    (hnewline : '\n' ∉ p) (htrim : Text.trim p = p) :
    ((define raw number).addDocs texts).summary = p := by
  obtain ⟨rest, hjoin⟩ := Script.exists_documentationOf_eq_join h
  rw [addDocs_define, summary, hjoin]
  exact Text.firstLine_join_cons hnewline htrim rest

end Command

/-- The command of a definition has the texts of the comments directly below it, one after the
other. -/
theorem Script.exists_commandAt_eq (lines : List Text) (i : Nat) :
    ∃ raw, commandAt lines i = (Command.define raw (i + 1)).addDocs (commentsBelow lines i) := by
  refine ⟨(afterMark (lines.getD i [])).takeWhile (· ≠ '('), ?_⟩
  rw [Command.addDocs_define]
  rfl

namespace Command

/-- **Documentation text by text.** Texts added to a command in order, from its definition on, are
joined by newlines, those before the first that says something left out; nothing else of the command
changes. If every text is trimmed and has no newline, the summary is the first that says something, or
empty with the documentation if there is none, and once there is a summary no text can change it. The
texts of the commands of a source are such texts. -/
theorem documentation_summary_addDocs (raw : Text) (number : Nat) (texts : List Text) :
    (define raw number).addDocs texts =
      { define raw number with documentation := Text.join (texts.dropWhile (· = [])) } ∧
    ((∀ t ∈ texts, '\n' ∉ t ∧ Text.trim t = t) →
      ((define raw number).addDocs texts).summary = (texts.find? (· ≠ [])).getD [] ∧
      (((define raw number).addDocs texts).summary = [] ↔
        ((define raw number).addDocs texts).documentation = []) ∧
      (((define raw number).addDocs texts).summary ≠ [] → ∀ more,
        (((define raw number).addDocs texts).addDocs more).summary =
          ((define raw number).addDocs texts).summary)) ∧
    ∀ s commands, Script.Source.commands s = .ok commands → ∀ c ∈ commands,
      ∃ raw number texts, (∀ t ∈ texts, '\n' ∉ t ∧ Text.trim t = t) ∧
        c = (define raw number).addDocs texts := by
  refine ⟨addDocs_define raw number texts, ?_, ?_⟩
  · intro htexts
    cases hfind : texts.find? (· ≠ []) with
    | none =>
      have hsummary := summary_addDocs_of_find?_eq_none raw number hfind
      have hdocumentation : ((define raw number).addDocs texts).documentation = [] := by
        rw [addDocs_define]
        exact Script.documentationOf_of_find?_eq_none hfind
      exact ⟨hsummary, iff_of_true hsummary hdocumentation, fun hne => absurd hsummary hne⟩
    | some p =>
      obtain ⟨hnewline, htrim⟩ := htexts p (List.mem_of_find?_eq_some hfind)
      have hsummary := summary_addDocs_of_find? raw number hfind hnewline htrim
      have hdocumentation : ((define raw number).addDocs texts).documentation ≠ [] := by
        rw [addDocs_define]
        exact Script.documentationOf_ne_nil_of_find? hfind
      have hp : p ≠ [] := by simpa using List.find?_some hfind
      refine ⟨hsummary, iff_of_false (hsummary ▸ hp) hdocumentation, fun _ more => ?_⟩
      have hmore : (texts ++ more).find? (· ≠ []) = some p := by
        rw [List.find?_append, hfind, Option.some_or]
      rw [← addDocs_append, hsummary]
      exact summary_addDocs_of_find? raw number hmore hnewline htrim
  · intro s commands h c hc
    obtain ⟨lines, hlines, hscan⟩ := Script.Source.exists_lines_of_commands h
    obtain ⟨-, rfl⟩ := Script.scanLines_eq_ok_iff.1 hscan
    obtain ⟨i, -, rfl⟩ := List.mem_map.1 hc
    obtain ⟨raw, hraw⟩ := Script.exists_commandAt_eq lines i
    exact ⟨raw, i + 1, _, fun t ht => Script.trimmed_of_mem_commentsBelow hlines ht, hraw⟩

/-- The summary is the second text here, and stays. -/
theorem documentation_summary_addDocs_of_late :
    ((define " a_b " 3).addDocs [[], "one".toList, []]).summary = "one".toList ∧
      (((define " a_b " 3).addDocs [[], "one".toList, []]).addDocs [" two\r\n".toList]).summary =
        "one".toList := by
  obtain ⟨hsummary, -, hstays⟩ :=
    (documentation_summary_addDocs " a_b " 3 [[], "one".toList, []]).2.1 (by decide)
  refine ⟨hsummary, ?_⟩
  rw [hstays (hsummary ▸ by decide) [" two\r\n".toList]]
  exact hsummary

-- a text that is not trimmed can change once another one follows
example : ((define "a" 1).addDoc "one\r").summary = "one\r".toList ∧
    (((define "a" 1).addDoc "one\r").addDoc "two").summary = "one".toList := by decide

end Command

end ShellDispatch
