import ShellDispatch.Proofs.Script.Outline

/-!
# Scans that go on

A scan of lines goes on where the scan of the lines before them ended (`feedAll_append`). Of those
lines it needs to know the commands, and whether a comment is documentation. The second can be read
off the lines (`collecting_of_feedAll`): it is if they end in a block, a definition with nothing but
comments below it.
-/

namespace ShellDispatch.Script

/-! ## Blocks at the end of lines -/

/-- The lines end in a definition and the comments below it, if any. -/
def EndsInBlock (lines : List Text) : Prop :=
  ∃ before definition comments, lines = before ++ definition :: comments ∧
    IsDefinition definition ∧ ∀ line ∈ comments, IsComment line

theorem not_endsInBlock_nil : ¬ EndsInBlock [] := by
  rintro ⟨before, definition, comments, h, -, -⟩
  exact absurd h (by simp)

theorem endsInBlock_cons {line : Text} {rest : List Text} :
    EndsInBlock (line :: rest) ↔
      EndsInBlock rest ∨ IsDefinition line ∧ ∀ l ∈ rest, IsComment l := by
  constructor
  · rintro ⟨before, definition, comments, h, hd, hc⟩
    cases before with
    | nil =>
      obtain ⟨rfl, rfl⟩ := List.cons.inj h
      exact Or.inr ⟨hd, hc⟩
    | cons first before =>
      obtain ⟨-, rfl⟩ := List.cons.inj h
      exact Or.inl ⟨before, definition, comments, rfl, hd, hc⟩
  · rintro (⟨before, definition, comments, rfl, hd, hc⟩ | ⟨hd, hc⟩)
    · exact ⟨line :: before, definition, comments, rfl, hd, hc⟩
    · exact ⟨[], line, rest, rfl, hd, hc⟩

instance decidableEndsInBlock : DecidablePred EndsInBlock
  | [] => isFalse not_endsInBlock_nil
  | line :: rest =>
    have := decidableEndsInBlock rest
    decidable_of_iff (EndsInBlock rest ∨ IsDefinition line ∧ ∀ l ∈ rest, IsComment l)
      endsInBlock_cons.symm

namespace Scan

variable {number : Nat} {s s₁ : Scan}

/-! ## One line -/

/-- Only a malformed definition ends a scan. -/
theorem exists_feed_eq_ok {line : Text} (h : ¬ IsMalformed line) (number : Nat) (s : Scan) :
    ∃ s₁, feed number line s = .ok () s₁ := by
  cases hl : Line.ofText line with
  | definition raw => exact ⟨_, feed_eq_of_definition hl number s⟩
  | malformed => exact absurd (Line.ofText_eq_malformed_iff.1 hl) h
  | comment text => exact ⟨_, feed_eq_of_comment hl number s⟩
  | other => exact ⟨_, feed_eq_of_other hl number s⟩

/-- After a line a comment is documentation if the line is a definition, or if it was before and the
line is a comment. -/
theorem collecting_of_feed {line : Text} (h : feed number line s = .ok () s₁) :
    s₁.collecting ↔ IsDefinition line ∨ s.collecting ∧ IsComment line := by
  by_cases hd : IsDefinition line
  · have hm : ¬ IsMalformed line := by
      intro hm
      rw [feed_eq_of_malformed (Line.ofText_of_isMalformed hm)] at h
      exact absurd h (by simp)
    rw [feed_eq_of_definition (Line.ofText_of_isDefinition hd hm)] at h
    obtain ⟨-, rfl⟩ := EStateM.Result.ok.inj h
    simp [hd]
  · by_cases hc : IsComment line
    · rw [feed_eq_of_comment (Line.ofText_of_isComment hc)] at h
      obtain ⟨-, rfl⟩ := EStateM.Result.ok.inj h
      simp [hd, hc]
    · rw [feed_eq_of_other (Line.ofText_of_not hd hc)] at h
      obtain ⟨-, rfl⟩ := EStateM.Result.ok.inj h
      simp [hd, hc]

/-! ## All lines -/

/-- **A scan in two parts**: the second part starts from what the first one found, with the number
after its last line. -/
theorem feedAll_append (items others : List (Except File.Failure Text)) :
    feedAll number (items ++ others) s =
      match feedAll number items s with
      | .ok _ s₁ => feedAll (number + items.length) others s₁
      | .error e s₁ => .error e s₁ := by
  induction items generalizing number s with
  | nil => rfl
  | cons item items ih =>
    cases item with
    | error cause => rfl
    | ok line =>
      rw [List.cons_append]
      cases hf : feed number line s with
      | error e s₁ => rw [feedAll_ok_of_feed_error hf, feedAll_ok_of_feed_error hf]
      | ok u s₁ =>
        rw [feedAll_ok_of_feed_ok hf, feedAll_ok_of_feed_ok hf, ih, List.length_cons,
          Nat.add_right_comm, Nat.add_assoc]

/-- A scan that fails at no line takes the first and then the others. -/
theorem exists_feed_of_feedAll_cons {line : Text} {items : List (Except File.Failure Text)}
    (h : feedAll number (.ok line :: items) s = .ok () s₁) :
    ∃ s₂, feed number line s = .ok () s₂ ∧ feedAll (number + 1) items s₂ = .ok () s₁ := by
  cases hf : feed number line s with
  | error e s₂ =>
    rw [feedAll_ok_of_feed_error hf] at h
    exact absurd h nofun
  | ok u s₂ =>
    rw [feedAll_ok_of_feed_ok hf] at h
    exact ⟨s₂, rfl, h⟩

/-- **What a scan hands on**: a comment on the next line is documentation if the lines end in a
block, or if it was documentation before them and they are comments. -/
theorem collecting_of_feedAll {lines : List Text} (h : feedAll number (lines.map .ok) s = .ok () s₁) :
    s₁.collecting ↔ EndsInBlock lines ∨ s.collecting ∧ ∀ line ∈ lines, IsComment line := by
  induction lines generalizing number s with
  | nil =>
    obtain ⟨-, rfl⟩ := EStateM.Result.ok.inj h
    simp [not_endsInBlock_nil]
  | cons line rest ih =>
    obtain ⟨s₂, hf, hrest⟩ := exists_feed_of_feedAll_cons h
    rw [ih hrest, collecting_of_feed hf, endsInBlock_cons, List.forall_mem_cons, or_assoc,
      or_and_right, and_assoc]

end Scan

end ShellDispatch.Script
