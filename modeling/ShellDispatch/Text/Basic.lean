/-!
# Texts

A `Text` is the list of its characters, so every operation on it is a recursion over a list and
every width is a number of characters. `rest?` takes a text apart at a fixed beginning,
`dropFinal` removes one closing element, `decimal` writes a number.
-/

namespace ShellDispatch

/-- A text: its characters in order. -/
abbrev Text := List Char

/-- A string literal stands for the list of its characters. -/
instance : Coe String Text := ⟨String.toList⟩

namespace Text

/-- The decimal digits of a number. -/
def decimal (n : Nat) : Text := Nat.toDigits 10 n

/-- What follows `head` in a text that begins with it. -/
def rest? : Text → Text → Option Text
  | [], t => some t
  | _ :: _, [] => none
  | c :: head, d :: t => if c = d then rest? head t else none

theorem rest?_eq_some_iff {head t r : Text} : rest? head t = some r ↔ t = head ++ r := by
  induction head generalizing t with
  | nil => simp [rest?, eq_comm]
  | cons c head ih =>
    cases t with
    | nil => simp [rest?]
    | cons d t =>
      by_cases h : c = d
      · simp [rest?, h, ih]
      · simp [rest?, h, Ne.symm h]

@[simp] theorem rest?_append (head t : Text) : rest? head (head ++ t) = some t :=
  rest?_eq_some_iff.2 rfl

/-- A list without its last element, if that element is `a`. -/
def dropFinal {α : Type} [DecidableEq α] (a : α) (l : List α) : List α :=
  if l.getLast? = some a then l.dropLast else l

@[simp] theorem dropFinal_append_self {α : Type} [DecidableEq α] (a : α) (l : List α) :
    dropFinal a (l ++ [a]) = l := by simp [dropFinal]

@[simp] theorem dropFinal_nil {α : Type} [DecidableEq α] (a : α) : dropFinal a [] = [] := by
  simp [dropFinal]

theorem dropFinal_of_ne {α : Type} [DecidableEq α] {a : α} {l : List α} (h : l.getLast? ≠ some a) :
    dropFinal a l = l := if_neg h

end Text

end ShellDispatch
