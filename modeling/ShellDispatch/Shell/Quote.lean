import ShellDispatch.Text.Basic

/-!
# Quoting for the shell

Between single quotes the shell takes every character as it stands, so only the single quote itself
needs care: `escape` closes the quotes, writes an escaped single quote and opens them again. `quote`
is a whole word whose value is the text.
-/

namespace ShellDispatch.Shell

/-- The characters that stand for `c` inside single quotes. -/
def escapeChar (c : Char) : Text := if c = '\'' then "'\\''" else [c]

/-- A text as it is written inside single quotes. -/
def escape (t : Text) : Text := t.flatMap escapeChar

/-- A word that the shell reads as the text. -/
def quote (t : Text) : Text := '\'' :: escape t ++ ['\'']

@[simp] theorem escape_nil : escape [] = [] := rfl

theorem escape_cons (c : Char) (t : Text) : escape (c :: t) = escapeChar c ++ escape t := rfl

@[simp] theorem escape_append (s t : Text) : escape (s ++ t) = escape s ++ escape t :=
  List.flatMap_append

theorem escapeChar_quote : escapeChar '\'' = "'\\''".toList := rfl

theorem escapeChar_of_ne {c : Char} (h : c ≠ '\'') : escapeChar c = [c] := if_neg h

end ShellDispatch.Shell
