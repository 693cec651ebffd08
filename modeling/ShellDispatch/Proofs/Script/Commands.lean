import ShellDispatch.Proofs.Script.Events

/-!
# Commands as they are found

What holds of every command that a scan finds in lines without newline (`Command.IsFound`): both
names come from one trimmed identifier without parenthesis, and the documentation consists of
trimmed lines, the first of which says something.
-/

namespace ShellDispatch

/-- The command is one that a scan can find in lines without newline. -/
structure Command.IsFound (c : Command) : Prop where
  /-- The identifier that both names come from. -/
  names : ∃ id : Text, Text.trim id = id ∧ '(' ∉ id ∧ '\n' ∉ id ∧ c.name = Command.nameOf id ∧
    c.functionName = Command.functionMark ++ id
  /-- The lines of the documentation, if there is one. -/
  documentation : c.documentation ≠ [] → (Text.pieces c.documentation).head? ≠ some [] ∧
    ∀ p ∈ Text.pieces c.documentation, Text.trim p = p

/-- The characters of a name are those of the identifier, and hyphens for underscores. -/
theorem Command.eq_or_mem_of_mem_nameOf {c : Char} {id : Text} (h : c ∈ nameOf id) :
    c = '-' ∨ c ≠ '_' ∧ c ∈ id := by
  obtain ⟨d, hd, hc⟩ := List.mem_map.1 h
  split at hc
  · exact Or.inl hc.symm
  · rename_i hne
    subst hc
    exact Or.inr ⟨hne, hd⟩

theorem Command.IsFound.newline_not_mem {c : Command} (h : c.IsFound) :
    '\n' ∉ c.name ∧ '\n' ∉ c.functionName := by
  obtain ⟨id, -, -, hid, hname, hfunction⟩ := h.names
  rw [hname, hfunction]
  constructor
  · intro hm
    rcases Command.eq_or_mem_of_mem_nameOf hm with heq | ⟨-, hm⟩
    · exact absurd heq (by decide)
    · exact hid hm
  · rw [List.mem_append, not_or]
    exact ⟨by decide, hid⟩

namespace Script

/-! ## Identifiers -/

theorem mem_of_mem_identifier {c : Char} {l : Text} (h : c ∈ identifier l) :
    c ∈ (afterMark l).takeWhile (· ≠ '(') :=
  Text.mem_of_mem_trim h

theorem parenthesis_not_mem_identifier (l : Text) : '(' ∉ identifier l := by
  intro h
  exact absurd (List.mem_takeWhile_imp (mem_of_mem_identifier h)) (by decide)

theorem newline_not_mem_identifier {l : Text} (h : '\n' ∉ l) : '\n' ∉ identifier l := by
  intro hm
  exact h (List.mem_of_mem_drop ((List.takeWhile_sublist _).subset (mem_of_mem_identifier hm)))

/-! ## Documentation -/

theorem trim_commentText (l : Text) : Text.trim (commentText l) = commentText l :=
  Text.trim_trim _

theorem newline_not_mem_commentText {l : Text} (h : '\n' ∉ l) : '\n' ∉ commentText l := by
  intro hm
  exact h (Text.mem_of_mem_trim (List.mem_of_mem_tail (Text.mem_of_mem_trim hm)))

/-- Documentation made up of comments without newline has them as its lines, from the first on that
says something. -/
theorem pieces_documentationOf {comments : List Text} (h : ∀ t ∈ comments, '\n' ∉ t)
    (hne : documentationOf comments ≠ []) :
    Text.pieces (documentationOf comments) = comments.dropWhile (· = []) := by
  unfold documentationOf Text.join at hne ⊢
  refine List.splitOn_intercalate '\n' ?_ ?_
  · intro t ht
    exact h t ((List.dropWhile_sublist _).subset ht)
  · intro hnil
    rw [hnil] at hne
    exact hne rfl

/-- The texts of comments are trimmed and have no newline, if the lines have none. -/
theorem trimmed_of_mem_commentsBelow {lines : List Text} (h : ∀ l ∈ lines, '\n' ∉ l) {i : Nat}
    {t : Text} (ht : t ∈ commentsBelow lines i) : '\n' ∉ t ∧ Text.trim t = t := by
  obtain ⟨l, hl, rfl⟩ := List.mem_map.1 ht
  have hline : '\n' ∉ l := h l (List.mem_of_mem_drop ((List.takeWhile_sublist _).subset hl))
  exact ⟨newline_not_mem_commentText hline, trim_commentText l⟩

theorem isFound_commandAt {lines : List Text} (h : ∀ l ∈ lines, '\n' ∉ l) (i : Nat) :
    (commandAt lines i).IsFound where
  names := by
    have hline : '\n' ∉ lines.getD i [] := by
      rw [List.getD_eq_getElem?_getD]
      cases hi : lines[i]? with
      | none => exact List.not_mem_nil
      | some l => exact h l (List.mem_of_getElem? hi)
    exact ⟨identifier (lines.getD i []), Text.trim_trim _, parenthesis_not_mem_identifier _,
      newline_not_mem_identifier hline, rfl, rfl⟩
  documentation := by
    have hcomments : ∀ t ∈ commentsBelow lines i, '\n' ∉ t ∧ Text.trim t = t :=
      fun _ ht => trimmed_of_mem_commentsBelow h ht
    intro hne
    have hpieces : Text.pieces (commandAt lines i).documentation =
        (commentsBelow lines i).dropWhile (· = []) :=
      pieces_documentationOf (fun t ht => (hcomments t ht).1) hne
    rw [hpieces]
    refine ⟨?_, fun p hp => (hcomments p ((List.dropWhile_sublist _).subset hp)).2⟩
    intro hfirst
    have hsays := List.head?_dropWhile_not (fun t : Text => decide (t = [])) (commentsBelow lines i)
    rw [hfirst] at hsays
    exact absurd hsays (by simp)

/-- **Every command of a source** is one that a scan can find. -/
theorem isFound_of_commands {s : Source} {commands : List Command}
    (h : s.commands = .ok commands) : ∀ c ∈ commands, c.IsFound := by
  obtain ⟨lines, hlines, hscan⟩ := Source.exists_lines_of_commands h
  obtain ⟨-, rfl⟩ := scanLines_eq_ok_iff.1 hscan
  intro c hc
  obtain ⟨i, -, rfl⟩ := List.mem_map.1 hc
  exact isFound_commandAt hlines i

end Script

end ShellDispatch
