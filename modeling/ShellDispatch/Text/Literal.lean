import ShellDispatch.Text.Hidden

/-!
# Texts as literals

`literal` shows a text between double quotes on one line. The double quote and the backslash get a
backslash before them, four control characters have a letter of their own, and every other character
without a shape of its own is shown by its code in hexadecimal.
-/

namespace ShellDispatch.Text

/-- A character as it is shown inside a literal. -/
def literalChar (c : Char) : Text :=
  if c = '"' then "\\\""
  else if c = '\\' then "\\\\"
  else if c = '\n' then "\\n"
  else if c = '\r' then "\\r"
  else if c = '\t' then "\\t"
  else if c = '\x00' then "\\0"
  else if isHidden c then "\\u\x7b" ++ Nat.toDigits 16 c.toNat ++ "\x7d"
  else [c]

/-- A text between double quotes, on one line. -/
def literal (t : Text) : Text := '"' :: t.flatMap literalChar ++ ['"']

end ShellDispatch.Text
