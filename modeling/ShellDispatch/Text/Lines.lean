import ShellDispatch.Text.Basic

/-!
# Texts of several lines

`pieces` cuts a text at its newlines and `join` puts pieces together again; `unlines` also ends the
last piece with a newline. `firstLine` is the text
before the first newline; where there is a newline, one carriage return directly before it belongs
to the line ending and is not part of the line.
-/

namespace ShellDispatch.Text

/-- The parts of a text between its newlines; a text without newline is one part. -/
def pieces (t : Text) : List Text := t.splitOn '\n'

/-- The parts written one after the other with a newline between neighbours. -/
def join (parts : List Text) : Text := List.intercalate ['\n'] parts

/-- A text followed by a newline. -/
def line (t : Text) : Text := t ++ ['\n']

/-- The texts as lines, each followed by a newline. -/
def unlines (ls : List Text) : Text := ls.flatMap line

@[simp] theorem unlines_nil : unlines [] = [] := rfl

@[simp] theorem unlines_cons (t : Text) (ls : List Text) :
    unlines (t :: ls) = line t ++ unlines ls := rfl

@[simp] theorem unlines_append (ls ms : List Text) :
    unlines (ls ++ ms) = unlines ls ++ unlines ms := List.flatMap_append

/-- The first line of a text, without its line ending. -/
def firstLine (t : Text) : Text :=
  if '\n' ∈ t then dropFinal '\r' (t.takeWhile (· ≠ '\n')) else t

theorem firstLine_of_not_mem {t : Text} (h : '\n' ∉ t) : firstLine t = t := if_neg h

example : firstLine "a\r\nb" = "a".toList ∧ firstLine "a\r" = "a\r".toList := by decide

end ShellDispatch.Text
