import ShellDispatch.Proofs.Script.Blocks
import ShellDispatch.Proofs.Script.Run

/-!
# What a scan remembers

A scan remembers two things of the lines before: the commands, and whether a comment on the next line
is documentation. Both can be read off those lines without scanning them (`feedAll_history`). Not
every scan has a command for the documentation it waits for, and one that has none loses it
(`document_of_commands_eq_nil`). But no line leads to such a scan (`attributed_of_feed`), so no
comment of a script is lost. A line that fails is forgotten.
-/

namespace ShellDispatch.Script

/-- The block in which lines end is that of the last definition. -/
theorem endsInBlock_iff {lines : List Text} :
    EndsInBlock lines ↔ ∃ before definition after, lines = before ++ definition :: after ∧
      IsDefinition definition ∧ (∀ l ∈ after, ¬ IsDefinition l) ∧ ∀ l ∈ after, IsComment l := by
  constructor
  · rintro ⟨before, definition, after, hlines, hd, hcomments⟩
    refine ⟨before, definition, after, hlines, hd, fun l hl hdl => ?_, hcomments⟩
    exact not_isComment_of_isDefinition hdl (hcomments l hl)
  · rintro ⟨before, definition, after, hlines, hd, -, hcomments⟩
    exact ⟨before, definition, after, hlines, hd, hcomments⟩

namespace Scan

variable {number : Nat} {line : Text} {lines : List Text} {s s₁ : Scan} {e : ScanError}

/-! ## One line -/

/-- Where a comment is documentation, there is a command that it belongs to. -/
def Attributed (s : Scan) : Prop := s.collecting → s.commands ≠ []

/-- Without commands a comment is lost. -/
theorem document_of_commands_eq_nil (h : s.commands = []) (text : Text) : s.document text = s := by
  unfold document addDoc
  rw [h]
  exact ite_self s

-- a scan need not be attributed, so it takes the lines before it to know that it is
example : ¬ Attributed { collecting := true } := fun h => h rfl rfl

/-- Where a comment is documentation, it is that of the last command. -/
theorem Attributed.exists_commands_document (h : s.Attributed) (hcollecting : s.collecting) :
    ∃ before c, s.commands = before ++ [c] ∧
      ∀ text, (s.document text).commands = before ++ [c.addDoc text] := by
  obtain ⟨before, c, hc⟩ := (List.eq_nil_or_concat' s.commands).resolve_left (h hcollecting)
  refine ⟨before, c, hc, fun text => ?_⟩
  unfold document
  rw [if_pos hcollecting, commands_addDoc, hc, documentLast_concat]
  rfl

/-- Everywhere else a comment changes nothing. -/
theorem document_of_not_collecting (h : ¬ s.collecting) (text : Text) : s.document text = s := if_neg h

/-- If documentation has a command before a line, it has one after it. -/
theorem attributed_of_feed (h : feed number line s = .ok () s₁) (hs : s.Attributed) :
    s₁.Attributed := by
  cases hl : Line.ofText line with
  | malformed =>
    rw [feed_eq_of_malformed hl] at h
    exact absurd h nofun
  | definition identifier =>
    rw [feed_eq_of_definition hl] at h
    obtain ⟨-, rfl⟩ := EStateM.Result.ok.inj h
    exact fun _ => List.concat_ne_nil _ s.commands
  | comment text =>
    rw [feed_eq_of_comment hl] at h
    obtain ⟨-, rfl⟩ := EStateM.Result.ok.inj h
    intro hcollecting
    rw [collecting_document] at hcollecting
    obtain ⟨before, c, -, hdocument⟩ := hs.exists_commands_document hcollecting
    rw [hdocument]
    exact List.concat_ne_nil _ before
  | other =>
    rw [feed_eq_of_other hl] at h
    obtain ⟨-, rfl⟩ := EStateM.Result.ok.inj h
    exact nofun

/-- A line that fails leaves the scan as it was. -/
theorem eq_of_feed_eq_error (h : feed number line s = .error e s₁) : s₁ = s := by
  cases hl : Line.ofText line with
  | malformed =>
    rw [feed_eq_of_malformed hl] at h
    exact (EStateM.Result.error.inj h).2.symm
  | definition identifier =>
    rw [feed_eq_of_definition hl] at h
    exact absurd h nofun
  | comment text =>
    rw [feed_eq_of_comment hl] at h
    exact absurd h nofun
  | other =>
    rw [feed_eq_of_other hl] at h
    exact absurd h nofun

/-! ## All lines -/

theorem attributed_of_feedAll (h : feedAll number (lines.map .ok) s = .ok () s₁)
    (hs : s.Attributed) : s₁.Attributed := by
  induction lines generalizing number s with
  | nil =>
    obtain ⟨-, rfl⟩ := EStateM.Result.ok.inj h
    exact hs
  | cons line rest ih =>
    obtain ⟨s₂, hf, hrest⟩ := exists_feed_of_feedAll_cons h
    exact ih hrest (attributed_of_feed hf hs)

/-- The commands of a scan are those that the lines before it define. -/
theorem commands_of_feedAll (h : feedAll number (lines.map .ok) {} = .ok () s) :
    s.commands = outline number lines := by
  cases hm : malformedAt? number lines with
  | none =>
    obtain ⟨s₁, hs₁, hcommands⟩ := feedAll_of_malformedAt?_eq_none hm (s := {})
    obtain ⟨-, rfl⟩ := EStateM.Result.ok.inj (hs₁.symm.trans h)
    exact hcommands
  | some n =>
    obtain ⟨s₁, hs₁⟩ := feedAll_of_malformedAt?_eq_some hm (s := {})
    exact absurd (hs₁.symm.trans h) nofun

/-- **What a scan remembers** of the lines that it was fed without failure. A comment on the next line
is documentation exactly if a definition is among the lines and nothing but comments comes after the
last one. Then there is a command, and the comment becomes documentation of the last one; otherwise it
changes nothing. The commands are those that the lines define, each with all the comments directly
below it. A line that fails changes nothing either. -/
theorem feedAll_history (h : feedAll number (lines.map .ok) {} = .ok () s) :
    (s.collecting ↔ ∃ before definition after, lines = before ++ definition :: after ∧
      IsDefinition definition ∧ (∀ l ∈ after, ¬ IsDefinition l) ∧ ∀ l ∈ after, IsComment l) ∧
    (s.collecting → s.commands ≠ []) ∧
    s.commands = outline number lines ∧
    (∀ n line, IsComment line → ∃ s₁, feed n line s = .ok () s₁ ∧
      (s.collecting → ∃ before c, s.commands = before ++ [c] ∧
        s₁.commands = before ++ [c.addDoc (commentText line)]) ∧
      (¬ s.collecting → s₁.commands = s.commands)) ∧
    ∀ n line e s₁, feed n line s = .error e s₁ →
      s₁.commands = s.commands ∧ s₁.collecting = s.collecting := by
  have hattributed : s.Attributed := attributed_of_feedAll h nofun
  refine ⟨?_, hattributed, commands_of_feedAll h, ?_, ?_⟩
  · rw [collecting_of_feedAll h, endsInBlock_iff]
    exact or_iff_left fun hstart => absurd hstart.1 nofun
  · intro n line hline
    refine ⟨_, feed_eq_of_comment (Line.ofText_of_isComment hline) n s, ?_, ?_⟩
    · intro hcollecting
      obtain ⟨before, c, hcommands, hdocument⟩ := hattributed.exists_commands_document hcollecting
      exact ⟨before, c, hcommands, hdocument _⟩
    · intro hcollecting
      rw [document_of_not_collecting hcollecting]
  · intro n line e s₁ herror
    rw [eq_of_feed_eq_error herror]
    exact ⟨rfl, rfl⟩

/-- The documentation of the first command ends at an empty line, that of the second goes on. -/
theorem feedAll_history_of_two :
    ∃ s, feedAll 1 (["function cmd_a(".toList, "# one".toList, [], "function cmd_b(".toList,
        "# two".toList].map .ok) {} = .ok () s ∧ s.collecting ∧
      s.commands = [⟨"a", "cmd_a", 1, "one"⟩, ⟨"b", "cmd_b", 4, "two"⟩] ∧
      ∃ s₁, feed 6 "#three" s = .ok () s₁ ∧
        s₁.commands = [⟨"a", "cmd_a", 1, "one"⟩, ⟨"b", "cmd_b", 4, "two\nthree"⟩] := by
  have hformed : malformedAt? 1 ["function cmd_a(".toList, "# one".toList, [],
      "function cmd_b(".toList, "# two".toList] = none := by decide +kernel
  obtain ⟨s, hs, -⟩ := feedAll_of_malformedAt?_eq_none hformed (s := {})
  obtain ⟨hcollecting, -, hcommands, hcomment, -⟩ := feedAll_history hs
  have hopen : s.collecting := hcollecting.2 ⟨["function cmd_a(".toList, "# one".toList, []],
    "function cmd_b(", ["# two".toList], rfl, by decide, by decide, by decide⟩
  have htwo : s.commands = [⟨"a", "cmd_a", 1, "one"⟩, ⟨"b", "cmd_b", 4, "two"⟩] :=
    hcommands.trans (by decide +kernel)
  refine ⟨s, hs, hopen, htwo, ?_⟩
  obtain ⟨s₁, hs₁, hdocument, -⟩ := hcomment 6 "#three" (by decide)
  obtain ⟨before, c, hlast, hs₁commands⟩ := hdocument hopen
  rw [htwo] at hlast
  obtain ⟨rfl, hc⟩ := List.append_inj' (show [_] ++ [_] = before ++ [c] from hlast) rfl
  obtain rfl := (List.cons.inj hc).1
  exact ⟨s₁, hs₁, hs₁commands.trans (by decide +kernel)⟩

end Scan

end ShellDispatch.Script
