import ShellDispatch.Proofs.Text.Blank
import ShellDispatch.Script.Line

/-!
# The kinds of lines

What `Line.ofText` reads off a line, said by the line's beginning alone: a definition starts with
the mark, a comment is a line whose trimmed form starts with `#`, and a definition is malformed if
no parenthesis follows the mark. No line is both a definition and a comment
(`not_isComment_of_isDefinition`), so the four cases of `Line.ofText` exclude each other.
-/

namespace ShellDispatch.Script

/-! ## Definitions and comments -/

/-- The line begins a definition. -/
def IsDefinition (line : Text) : Prop := Line.definitionMark <+: line

/-- What follows the mark of a definition. -/
def afterMark (line : Text) : Text := line.drop Line.definitionMark.length

/-- The line begins a definition and has no parenthesis after the mark. -/
def IsMalformed (line : Text) : Prop := IsDefinition line ∧ '(' ∉ afterMark line

/-- The identifier of a definition: the text up to the first parenthesis, without the blanks around
it. -/
def identifier (line : Text) : Text := Text.trim ((afterMark line).takeWhile (· ≠ '('))

/-- The trimmed line starts with `#`. -/
def IsComment (line : Text) : Prop := (Text.trim line).head? = some '#'

/-- What follows the first `#` of a comment, without the blanks around it. -/
def commentText (line : Text) : Text := Text.trim (Text.trim line).tail

instance : DecidablePred IsDefinition := fun line =>
  inferInstanceAs (Decidable (Line.definitionMark <+: line))

instance : DecidablePred IsMalformed := fun line =>
  inferInstanceAs (Decidable (IsDefinition line ∧ '(' ∉ afterMark line))

instance : DecidablePred IsComment := fun line =>
  inferInstanceAs (Decidable ((Text.trim line).head? = some '#'))

theorem isDefinition_iff {line : Text} :
    IsDefinition line ↔ line = Line.definitionMark ++ afterMark line := by
  constructor
  · rintro ⟨rest, rfl⟩
    rw [afterMark, List.drop_left]
  · intro h
    exact ⟨afterMark line, h.symm⟩

theorem rest?_definitionMark_of_isDefinition {line : Text} (h : IsDefinition line) :
    Text.rest? Line.definitionMark line = some (afterMark line) :=
  Text.rest?_eq_some_iff.2 (isDefinition_iff.1 h)

theorem rest?_definitionMark_of_not_isDefinition {line : Text} (h : ¬ IsDefinition line) :
    Text.rest? Line.definitionMark line = none := by
  cases hr : Text.rest? Line.definitionMark line with
  | none => rfl
  | some rest => exact absurd ⟨rest, (Text.rest?_eq_some_iff.1 hr).symm⟩ h

/-- A definition starts with a visible character other than `#`, so it is no comment. -/
theorem not_isComment_of_isDefinition {line : Text} (h : IsDefinition line) : ¬ IsComment line := by
  obtain ⟨rest, rfl⟩ := h
  intro hc
  unfold IsComment at hc
  rw [show Line.definitionMark ++ rest = 'f' :: ("unction cmd_".toList ++ rest) from rfl,
    Text.trim_cons (by decide), List.head?_cons] at hc
  exact absurd hc (by decide)

/-! ## The cases of a line -/

namespace Line

theorem ofText_of_isMalformed {line : Text} (h : IsMalformed line) : ofText line = .malformed := by
  unfold ofText
  rw [rest?_definitionMark_of_isDefinition h.1]
  exact if_neg h.2

theorem ofText_of_isDefinition {line : Text} (h : IsDefinition line) (hp : ¬ IsMalformed line) :
    ofText line = .definition ((afterMark line).takeWhile (· ≠ '(')) := by
  have hp' : '(' ∈ afterMark line := Classical.byContradiction fun hn => hp ⟨h, hn⟩
  unfold ofText
  rw [rest?_definitionMark_of_isDefinition h]
  exact if_pos hp'

theorem ofText_of_isComment {line : Text} (h : IsComment line) :
    ofText line = .comment (commentText line) := by
  have hd : ¬ IsDefinition line := fun hd => not_isComment_of_isDefinition hd h
  unfold ofText commentText
  rw [rest?_definitionMark_of_not_isDefinition hd]
  unfold IsComment at h
  cases ht : Text.trim line with
  | nil => rw [ht] at h; exact absurd h (by simp)
  | cons c t =>
    rw [ht] at h
    obtain rfl : c = '#' := Option.some.inj h
    rfl

theorem ofText_of_not {line : Text} (hd : ¬ IsDefinition line) (hc : ¬ IsComment line) :
    ofText line = .other := by
  unfold ofText
  rw [rest?_definitionMark_of_not_isDefinition hd]
  dsimp only
  split
  · rename_i text ht
    exact absurd (by rw [IsComment, ht]; rfl) hc
  · rfl

theorem ofText_eq_malformed_iff {line : Text} : ofText line = .malformed ↔ IsMalformed line := by
  constructor
  · intro h
    by_cases hd : IsDefinition line
    · by_cases hm : IsMalformed line
      · exact hm
      · rw [ofText_of_isDefinition hd hm] at h
        exact absurd h (by simp)
    · by_cases hc : IsComment line
      · rw [ofText_of_isComment hc] at h
        exact absurd h (by simp)
      · rw [ofText_of_not hd hc] at h
        exact absurd h (by simp)
  · exact ofText_of_isMalformed

end Line

end ShellDispatch.Script
