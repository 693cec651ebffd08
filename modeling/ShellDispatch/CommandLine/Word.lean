import ShellDispatch.Text.Basic

/-!
# Words of a command line

A `Word` is a word of the command line by its form alone: `--`, a long option with or without a
value, short options, or anything else. Which options exist is up to the tool. A `Request` is what
a whole command line asks for.
-/

namespace ShellDispatch.CommandLine

/-- A word by its form. -/
inductive Word where
  /-- The mark after which no word is an option. -/
  | endOfOptions
  /-- A long option, with the value written in the same word. -/
  | long (name : Text) (value : Option Text)
  /-- Short options, one per letter. -/
  | short (letters : Text)
  /-- A word that is no option. -/
  | plain (text : Text)
deriving DecidableEq, Repr

/-- The form of a word. A single hyphen is no option. -/
def Word.ofText : Text → Word
  | ['-', '-'] => endOfOptions
  | '-' :: '-' :: rest =>
    long (rest.takeWhile (· ≠ '=')) (rest.dropWhile (· ≠ '=')).tail?
  | '-' :: c :: rest => short (c :: rest)
  | t => plain t

/-- What a command line asks for. -/
inductive Request (α : Type) where
  /-- The description of the tool. -/
  | help
  /-- A run of the tool. -/
  | run (arguments : α)
deriving DecidableEq, Repr

/-- The refusal of a command line. -/
structure Rejection where
deriving DecidableEq, Repr

end ShellDispatch.CommandLine
