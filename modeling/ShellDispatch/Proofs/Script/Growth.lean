import ShellDispatch.Proofs.Script.Concatenation

/-!
# Scripts that grow

A scan of more lines only adds to what a scan of the first of them finds (`scanLines_grows`). An error
stays. Commands stay as they are, except for the last, which may get more documentation as long as
comments follow it. So the lines of the definitions are in order (`line_lt_line_of_scanLines`).
-/

namespace ShellDispatch

/-! ## Commands that grow -/

/-- The second command is the first with perhaps more documentation. -/
structure Command.Grows (c d : Command) : Prop where
  name : d.name = c.name
  functionName : d.functionName = c.functionName
  line : d.line = c.line
  documentation : c.documentation <+: d.documentation

namespace Command

theorem Grows.refl (c : Command) : c.Grows c := ⟨rfl, rfl, rfl, List.prefix_refl _⟩

theorem Grows.trans {c d e : Command} (h : c.Grows d) (h' : d.Grows e) : c.Grows e :=
  ⟨h'.name.trans h.name, h'.functionName.trans h.functionName, h'.line.trans h.line,
    h.documentation.trans h'.documentation⟩

theorem grows_addDoc (c : Command) (text : Text) : c.Grows (c.addDoc text) := by
  refine ⟨rfl, rfl, rfl, ?_⟩
  rw [documentation_addDoc]
  split
  · rename_i h
    rw [h]
    exact List.nil_prefix
  · exact List.prefix_append _ _

theorem grows_addDocs (c : Command) (texts : List Text) : c.Grows (c.addDocs texts) := by
  induction texts generalizing c with
  | nil => exact .refl c
  | cons text texts ih => exact (grows_addDoc c text).trans (ih (c.addDoc text))

end Command

namespace Script

variable {first second lines : List Text} {commands others : List Command}

/-! ## Lines that leave a block -/

/-- After the last definition of the lines comes a line that is no comment. -/
def LeavesBlock (lines : List Text) : Prop :=
  ∃ before definition after, lines = before ++ definition :: after ∧ IsDefinition definition ∧
    (∀ line ∈ after, ¬ IsDefinition line) ∧ ∃ line ∈ after, ¬ IsComment line

/-- The block in which lines end is that of their last definition. -/
theorem isComment_of_endsInBlock {before after : List Text} {definition : Text}
    (hd : IsDefinition definition) (hlast : ∀ line ∈ after, ¬ IsDefinition line)
    (h : EndsInBlock (before ++ definition :: after)) : ∀ line ∈ after, IsComment line := by
  induction before with
  | nil =>
    rcases endsInBlock_cons.1 h with ⟨b, d, a, rfl, hd', -⟩ | ⟨-, hcomments⟩
    · exact absurd hd' (hlast d (by simp))
    · exact hcomments
  | cons line before ih =>
    rcases endsInBlock_cons.1 h with h | ⟨-, hcomments⟩
    · exact ih h
    · exact absurd (hcomments definition (by simp)) (not_isComment_of_isDefinition hd)

theorem LeavesBlock.not_endsInBlock (h : LeavesBlock lines) : ¬ EndsInBlock lines := by
  obtain ⟨before, definition, after, rfl, hd, hlast, line, hline, hc⟩ := h
  intro hblock
  exact hc (isComment_of_endsInBlock hd hlast hblock line hline)

/-- Nothing is carried over from lines that leave their last block, nor to lines that do not start
with a comment. -/
theorem carriedComments_eq_nil
    (h : (∃ next, second.head? = some next ∧ ¬ IsComment next) ∨ LeavesBlock first) :
    carriedComments first second = [] := by
  unfold carriedComments
  split
  · rename_i hblock
    rcases h with ⟨next, hnext, hc⟩ | h
    · obtain ⟨rest, rfl⟩ := List.head?_eq_some_iff.1 hnext
      rw [List.takeWhile_cons_of_neg (by simpa using hc)]
      rfl
    · exact absurd hblock h.not_endsInBlock
  · rfl

/-! ## More lines -/

/-- **An error stays**, whatever comes after it. -/
theorem scanLines_append_of_error {e : ScanError} (h : scanLines first = .error e) :
    scanLines (first ++ second) = .error e := by
  obtain ⟨before, line, after, rfl, hbefore, hline, he⟩ := scanLines_eq_error_iff.1 h
  exact scanLines_eq_error_iff.2
    ⟨before, line, after ++ second, by simp, hbefore, hline, he⟩

/-- **Commands stay**, the last one perhaps with more documentation, and others follow. -/
theorem exists_eq_documentLast_append (h : scanLines first = .ok commands)
    (h' : scanLines (first ++ second) = .ok others) :
    ∃ more, others = documentLast (carriedComments first second) commands ++ more := by
  cases hm : malformedAt? 1 second with
  | none =>
    rw [scanLines_append_of_malformedAt?_eq_none h hm] at h'
    exact ⟨_, (Except.ok.inj h').symm⟩
  | some n =>
    rw [scanLines_append_of_malformedAt?_eq_some h hm] at h'
    exact absurd h' (by simp)

/-! ## The lines of the definitions -/

theorem line_lt_line_of_scanLines (h : scanLines lines = .ok commands) :
    (commands.map (·.line)).Pairwise (· < ·) := by
  obtain ⟨-, rfl⟩ := scanLines_eq_ok_iff.1 h
  have hindices : (definitionIndices lines).Pairwise (· < ·) :=
    List.pairwise_lt_range.filter _
  rw [List.map_map, List.pairwise_map]
  refine hindices.imp ?_
  intro i j hij
  show i + 1 < j + 1
  omega

theorem line_mem_of_scanLines (h : scanLines lines = .ok commands) :
    ∀ c ∈ commands, 1 ≤ c.line ∧ c.line ≤ lines.length := by
  obtain ⟨-, rfl⟩ := scanLines_eq_ok_iff.1 h
  intro c hc
  obtain ⟨i, hi, rfl⟩ := List.mem_map.1 hc
  have hlt : i < lines.length := List.mem_range.1 (List.mem_filter.1 hi).1
  show 1 ≤ i + 1 ∧ i + 1 ≤ lines.length
  omega

/-! ## Scans go on -/

/-- **A scan goes on with what it has found.** With more lines an error stays, all commands but the
last stay as they are, and the last one grows at most in its documentation, which it only does if the
next line is a comment and no other line has come in between. The lines of the definitions are in
order and lines of the script. -/
theorem scanLines_grows :
    (∀ first all : List Text, first <+: all →
      (∀ e, scanLines first = .error e → scanLines all = .error e) ∧
      ∀ found commands, scanLines first = .ok found → scanLines all = .ok commands →
        found.length ≤ commands.length ∧ found.dropLast <+: commands ∧
        ∀ c, found.getLast? = some c → ∃ d, commands[found.length - 1]? = some d ∧ c.Grows d ∧
          ((∃ next, all[first.length]? = some next ∧ ¬ IsComment next) ∨ LeavesBlock first →
            d.documentation = c.documentation)) ∧
    ∀ lines commands, scanLines lines = .ok commands →
      (commands.map (·.line)).Pairwise (· < ·) ∧
        ∀ c ∈ commands, 1 ≤ c.line ∧ c.line ≤ lines.length := by
  refine ⟨?_, fun lines commands h => ⟨line_lt_line_of_scanLines h, line_mem_of_scanLines h⟩⟩
  rintro first _ ⟨second, rfl⟩
  refine ⟨fun e h => scanLines_append_of_error h, ?_⟩
  intro found commands h h'
  obtain ⟨more, rfl⟩ := exists_eq_documentLast_append h h'
  rcases List.eq_nil_or_concat found with rfl | ⟨before, last, rfl⟩
  · exact ⟨Nat.zero_le _, List.nil_prefix, fun c hc => absurd hc (by simp)⟩
  rw [List.concat_eq_append, documentLast_concat, List.append_assoc]
  refine ⟨?_, ?_, ?_⟩
  · simp only [List.length_append, List.length_singleton]
    omega
  · rw [List.dropLast_concat]
    exact List.prefix_append _ _
  · intro c hc
    obtain rfl : last = c := by simpa using hc
    refine ⟨last.addDocs (carriedComments first second), by simp, last.grows_addDocs _, ?_⟩
    intro hclosed
    have hnext : ∀ next, (first ++ second)[first.length]? = some next → second.head? = some next := by
      intro next hn
      rwa [List.getElem?_append_right (Nat.le_refl _), Nat.sub_self, ← List.head?_eq_getElem?] at hn
    have hnil : carriedComments first second = [] := by
      refine carriedComments_eq_nil (hclosed.imp_left ?_)
      rintro ⟨next, hn, hc⟩
      exact ⟨next, hnext next hn, hc⟩
    rw [hnil, Command.addDocs_nil]

/-- The last command of the first lines may be open for comments, or not be any more. -/
theorem scanLines_grows_of_two :
    (∃ d, [(⟨"a", "cmd_a", 1, "one\ntwo"⟩ : Command)][0]? = some d ∧
      Command.Grows ⟨"a", "cmd_a", 1, "one"⟩ d) ∧
    ∃ d, [(⟨"a", "cmd_a", 1, []⟩ : Command), ⟨"b", "cmd_b", 2, "one"⟩][1]? = some d ∧
      d.documentation = "one".toList := by
  have hopen : scanLines ["function cmd_a(".toList, "# one".toList] =
      .ok [⟨"a", "cmd_a", 1, "one"⟩] := scanLines_eq_ok_iff.2 (by decide +kernel)
  have hmore : scanLines ["function cmd_a(".toList, "# one".toList, "# two".toList] =
      .ok [⟨"a", "cmd_a", 1, "one\ntwo"⟩] := scanLines_eq_ok_iff.2 (by decide +kernel)
  have hclosed : scanLines ["function cmd_a(".toList, "function cmd_b(".toList, "# one".toList, []] =
      .ok [⟨"a", "cmd_a", 1, []⟩, ⟨"b", "cmd_b", 2, "one"⟩] :=
    scanLines_eq_ok_iff.2 (by decide +kernel)
  have hlate : scanLines ["function cmd_a(".toList, "function cmd_b(".toList, "# one".toList, [],
      "# late".toList] = .ok [⟨"a", "cmd_a", 1, []⟩, ⟨"b", "cmd_b", 2, "one"⟩] :=
    scanLines_eq_ok_iff.2 (by decide +kernel)
  have hleaves : LeavesBlock ["function cmd_a(".toList, "function cmd_b(".toList, "# one".toList, []] :=
    ⟨["function cmd_a(".toList], "function cmd_b(".toList, ["# one".toList, []], rfl, by decide,
      by decide, [], by decide, by decide⟩
  constructor
  · obtain ⟨-, -, hlast⟩ := (scanLines_grows.1 _ _ ⟨["# two".toList], rfl⟩).2 _ _ hopen hmore
    obtain ⟨d, hd, hgrows, -⟩ := hlast _ rfl
    exact ⟨d, hd, hgrows⟩
  · obtain ⟨-, -, hlast⟩ := (scanLines_grows.1 _ _ ⟨["# late".toList], rfl⟩).2 _ _ hclosed hlate
    obtain ⟨d, hd, -, hsame⟩ := hlast _ rfl
    exact ⟨d, hd, hsame (Or.inr hleaves)⟩

end Script

end ShellDispatch
