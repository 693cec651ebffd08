import ShellDispatch.Command.Basic

/-!
# The listing of commands

One row per command: an indented name, and for a documented command its summary. The summaries of
all rows start in one column, the first that every name leaves free. A row can be aligned only up
to `maxWidth`; rows without summary are not aligned, so they never fail.
-/

namespace ShellDispatch.Listing

/-- The failure to align a row with a name of this width. -/
structure Overflow where
  /-- The number of characters of the longest name. -/
  width : Nat
deriving DecidableEq, Repr

/-- The blanks before every name. -/
def indent : Text := "    "

/-- The text between a name and a summary. -/
def separator : Text := " - "

/-- The greatest width to which a name is filled up. -/
def maxWidth : Nat := 65535

/-- The number of characters of the longest name, zero if there is none. -/
def width (commands : List Command) : Nat :=
  (commands.map (·.name.length)).foldr max 0

/-- A text filled up with blanks to a number of characters. -/
def fill (width : Nat) (t : Text) : Text := t ++ List.replicate (width - t.length) ' '

/-- The row of a command among names of at most the given width. -/
def row (width : Nat) (c : Command) : Except Overflow Text :=
  if c.summary = [] then .ok (indent ++ c.name)
  else if maxWidth < width then .error ⟨width⟩
  else .ok (indent ++ fill width c.name ++ separator ++ c.summary)

/-- The rows of the commands, in order. -/
def rows (commands : List Command) : Except Overflow (List Text) :=
  commands.mapM (row (width commands))

@[simp] theorem width_nil : width [] = 0 := rfl

@[simp] theorem width_cons (c : Command) (cs : List Command) :
    width (c :: cs) = max c.name.length (width cs) := rfl

theorem length_name_le_width {c : Command} {cs : List Command} (h : c ∈ cs) :
    c.name.length ≤ width cs := by
  induction cs with
  | nil => simp at h
  | cons d cs ih =>
    rcases List.mem_cons.1 h with rfl | h
    · exact Nat.le_max_left _ _
    · exact Nat.le_trans (ih h) (Nat.le_max_right _ _)

theorem length_fill {w : Nat} {t : Text} (h : t.length ≤ w) : (fill w t).length = w := by
  simp only [fill, List.length_append, List.length_replicate]; omega

end ShellDispatch.Listing
