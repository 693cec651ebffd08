import ShellDispatch.Text.Basic

/-!
# Blank characters

A character is blank if it has the Unicode property White_Space. The 25 characters of the property
form the ten closed ranges of `blankRanges`. `trim` removes the blanks at both ends of a text and
keeps those inside.
-/

namespace ShellDispatch.Text

/-- The code points with the property White_Space, as closed ranges in ascending order. -/
def blankRanges : List (Nat × Nat) :=
  [(0x0009, 0x000D), (0x0020, 0x0020), (0x0085, 0x0085), (0x00A0, 0x00A0), (0x1680, 0x1680),
   (0x2000, 0x200A), (0x2028, 0x2029), (0x202F, 0x202F), (0x205F, 0x205F), (0x3000, 0x3000)]

/-- Whether a character is white space. -/
def isBlank (c : Char) : Bool :=
  blankRanges.any fun r => r.1 ≤ c.toNat && c.toNat ≤ r.2

example : (blankRanges.map fun r => r.2 - r.1 + 1).sum = 25 := by decide

theorem isBlank_return : isBlank '\r' = true := by decide

/-- A text without the blanks at its start. -/
def trimStart (t : Text) : Text := t.dropWhile isBlank

/-- A text without the blanks at its end. -/
def trimEnd (t : Text) : Text := (t.reverse.dropWhile isBlank).reverse

/-- A text without the blanks at its start and at its end. -/
def trim (t : Text) : Text := trimEnd (trimStart t)

end ShellDispatch.Text
