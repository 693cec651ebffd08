import ShellDispatch.Proofs.Script.Blocks
import ShellDispatch.Proofs.Script.Run

/-!
# Scripts one below the other

The lines of two scripts together have the commands of the first and those of the second, on lines
further down (`scanLines_concatenation`). One thing crosses the border: where the first script ends
in a block, the comments with which the second begins go on with the documentation of its last
command.
-/

namespace ShellDispatch

/-- A command whose definition stands a number of lines further down. -/
def Command.moveDown (lines : Nat) (c : Command) : Command := { c with line := c.line + lines }

namespace Script

/-- The comments with which the second part of a script goes on with the documentation of the last
command of the first. -/
def carriedComments (first second : List Text) : List Text :=
  if EndsInBlock first then (second.takeWhile fun line => IsComment line).map commentText else []

/-! ## Numbers further down -/

theorem malformedAt?_add (number lines : Nat) (ls : List Text) :
    malformedAt? (number + lines) ls = (malformedAt? number ls).map (· + lines) := by
  induction ls generalizing number with
  | nil => rfl
  | cons l ls ih =>
    unfold malformedAt?
    split
    · rfl
    · rw [Nat.add_right_comm, ih]

theorem outline_add (number lines : Nat) (ls : List Text) :
    outline (number + lines) ls = (outline number ls).map (·.moveDown lines) := by
  induction ls generalizing number with
  | nil => rfl
  | cons l ls ih =>
    unfold outline
    rw [Nat.add_right_comm, ih]
    split
    · rfl
    · rfl

/-! ## What crosses the border -/

/-- The state after the first part, as far as the second part depends on it. -/
theorem exists_feedAll_of_scanLines {first : List Text} {commands : List Command}
    (h : scanLines first = .ok commands) :
    ∃ s, Scan.feedAll 1 (first.map .ok) {} = .ok () s ∧ s.commands = commands ∧
      (s.collecting ↔ EndsInBlock first) := by
  unfold scanLines scanItems at h
  cases hs : Scan.feedAll 1 (first.map .ok) {} with
  | error e s =>
    rw [hs] at h
    exact absurd h (by simp)
  | ok u s =>
    rw [hs] at h
    refine ⟨s, rfl, Except.ok.inj h, ?_⟩
    rw [Scan.collecting_of_feedAll hs]
    simp

theorem malformedAt?_of_scanLines_ok {ls : List Text} {commands : List Command}
    (h : scanLines ls = .ok commands) : malformedAt? 1 ls = none ∧ outline 1 ls = commands := by
  rw [scanLines_eq_outline] at h
  cases hm : malformedAt? 1 ls with
  | some n =>
    rw [hm] at h
    exact absurd h (by simp)
  | none =>
    rw [hm] at h
    exact ⟨rfl, Except.ok.inj h⟩

theorem malformedAt?_of_scanLines_error {ls : List Text} {n : Nat}
    (h : scanLines ls = .error (.malformedDefinition n)) : malformedAt? 1 ls = some n := by
  rw [scanLines_eq_outline] at h
  cases hm : malformedAt? 1 ls with
  | some k =>
    rw [hm] at h
    rw [ScanError.malformedDefinition.inj (Except.error.inj h)]
  | none =>
    rw [hm] at h
    exact absurd h (by simp)

/-- The lines after a well-formed first part are scanned from the state that it leaves. -/
theorem scanLines_append_eq {first second : List Text} {s : Scan}
    (h : Scan.feedAll 1 (first.map .ok) {} = .ok () s) :
    scanLines (first ++ second) =
      match Scan.feedAll (1 + first.length) (second.map .ok) s with
      | .ok _ s₁ => .ok s₁.commands
      | .error e _ => .error e := by
  have hrun : Scan.feedAll 1 ((first ++ second).map .ok) {} =
      Scan.feedAll (1 + first.length) (second.map .ok) s := by
    rw [List.map_append, Scan.feedAll_append, h]
    dsimp only
    rw [List.length_map]
  unfold scanLines scanItems
  exact hrun ▸ rfl

/-- Well-formed lines go on with the last command of the first part, and have their outline. -/
theorem scanLines_append_of_malformedAt?_eq_none {first second : List Text} {commands : List Command}
    (h : scanLines first = .ok commands) (hm : malformedAt? 1 second = none) :
    scanLines (first ++ second) = .ok (documentLast (carriedComments first second) commands ++
      (outline 1 second).map (·.moveDown first.length)) := by
  obtain ⟨s, hs, rfl, hblock⟩ := exists_feedAll_of_scanLines h
  have hmalformed : malformedAt? (1 + first.length) second = none := by
    rw [malformedAt?_add, hm]
    rfl
  have hcomments : leadingComments second =
      (second.takeWhile fun line => IsComment line).map commentText :=
    leadingComments_eq (malformedAt?_eq_none_iff.1 hm)
  have hcarried : s.commandsWith (leadingComments second) =
      documentLast (carriedComments first second) s.commands := by
    rw [hcomments]
    unfold Scan.commandsWith carriedComments
    by_cases hb : EndsInBlock first
    · rw [if_pos (hblock.2 hb), if_pos hb]
    · rw [if_neg (mt hblock.1 hb), if_neg hb, documentLast_nil]
  obtain ⟨s₁, hs₁, hcommands⟩ := Scan.feedAll_of_malformedAt?_eq_none hmalformed (s := s)
  rw [scanLines_append_eq hs, hs₁]
  dsimp only
  rw [hcommands, hcarried, outline_add]

theorem scanLines_append_of_malformedAt?_eq_some {first second : List Text} {commands : List Command}
    {n : Nat} (h : scanLines first = .ok commands) (hm : malformedAt? 1 second = some n) :
    scanLines (first ++ second) = .error (.malformedDefinition (n + first.length)) := by
  obtain ⟨s, hs, -, -⟩ := exists_feedAll_of_scanLines h
  have hmalformed : malformedAt? (1 + first.length) second = some (n + first.length) := by
    rw [malformedAt?_add, hm]
    rfl
  obtain ⟨s₁, hs₁⟩ := Scan.feedAll_of_malformedAt?_eq_some hmalformed (s := s)
  rw [scanLines_append_eq hs, hs₁]

/-- **The commands of two scripts together** are those of the first, the last of them with the
comments that the second begins with if the first ends in a block, and those of the second, further
down. A malformed definition of the second is found further down as well. -/
theorem scanLines_concatenation {first : List Text} {commands : List Command}
    (h : scanLines first = .ok commands) (second : List Text) :
    (∀ others, scanLines second = .ok others →
      scanLines (first ++ second) =
        .ok (documentLast (carriedComments first second) commands ++
          others.map (·.moveDown first.length))) ∧
    ∀ n, scanLines second = .error (.malformedDefinition n) →
      scanLines (first ++ second) = .error (.malformedDefinition (n + first.length)) := by
  constructor
  · intro others hothers
    obtain ⟨hm, rfl⟩ := malformedAt?_of_scanLines_ok hothers
    exact scanLines_append_of_malformedAt?_eq_none h hm
  · intro n hn
    exact scanLines_append_of_malformedAt?_eq_some h (malformedAt?_of_scanLines_error hn)

/-- The first script may end within the documentation of its last command. -/
theorem scanLines_concatenation_of_unfinished :
    scanLines (["function cmd_a(".toList, "# one".toList] ++
        [" # two ".toList, "#".toList, "function cmd_b(".toList, "# three".toList]) =
        .ok [⟨"a", "cmd_a", 1, "one\ntwo\n"⟩, ⟨"b", "cmd_b", 5, "three"⟩] ∧
      scanLines (["function cmd_a(".toList, "# one".toList] ++
        ["# two".toList, "function cmd_b".toList]) = .error (.malformedDefinition 4) := by
  have hfirst : scanLines ["function cmd_a(".toList, "# one".toList] =
      .ok [⟨"a", "cmd_a", 1, "one"⟩] := scanLines_eq_ok_iff.2 (by decide +kernel)
  have hsecond : scanLines [" # two ".toList, "#".toList, "function cmd_b(".toList,
      "# three".toList] = .ok [⟨"b", "cmd_b", 3, "three"⟩] :=
    scanLines_eq_ok_iff.2 (by decide +kernel)
  have hmalformed : scanLines ["# two".toList, "function cmd_b".toList] =
      .error (.malformedDefinition 2) :=
    scanLines_eq_error_iff.2 ⟨["# two".toList], "function cmd_b".toList, [], rfl,
      by decide +kernel, by decide +kernel, rfl⟩
  have hcarried : carriedComments ["function cmd_a(".toList, "# one".toList]
      [" # two ".toList, "#".toList, "function cmd_b(".toList, "# three".toList] =
        ["two".toList, []] := by decide +kernel
  constructor
  · rw [(scanLines_concatenation hfirst _).1 _ hsecond, hcarried]
    rfl
  · exact (scanLines_concatenation hfirst _).2 2 hmalformed

end Script

end ShellDispatch
