import ShellDispatch.Text.Blank

/-!
# Lines of a script

What a line means for the search for commands does not depend on the lines around it: `Line.ofText`
reads it off the text. A definition starts at the very beginning of a line; a comment may be
indented.
-/

namespace ShellDispatch.Script

/-- What a line of a script means for the search for commands. -/
inductive Line where
  /-- The definition of a command; the identifier is the text up to the parenthesis. -/
  | definition (identifier : Text)
  /-- The beginning of a definition without a parenthesis. -/
  | malformed
  /-- A comment, without its mark and the blanks around it. -/
  | comment (text : Text)
  /-- Any other line. -/
  | other
deriving DecidableEq, Repr

namespace Line

/-- The text with which every definition begins. -/
def definitionMark : Text := "function cmd_"

/-- What a line of this text means. -/
def ofText (t : Text) : Line :=
  match Text.rest? definitionMark t with
  | some rest => if '(' ∈ rest then .definition (rest.takeWhile (· ≠ '(')) else .malformed
  | none =>
    match Text.trim t with
    | '#' :: text => .comment (Text.trim text)
    | _ => .other

end Line

end ShellDispatch.Script
