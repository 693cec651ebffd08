import ShellDispatch.Shell.Quote

/-!
# How the shell reads words

`Mode` is what the shell knows about the quoting of the next character, and `Mode.next` how a
character changes it. `readWord` reads one word by the rules for single quotes and backslashes: its
value and what follows it. A word ends before a blank or a newline outside quotes, or at the end of
the text; a quote that is not closed and a backslash at the very end leave no word.
-/

namespace ShellDispatch.Shell

/-- The quoting in force at a character. -/
inductive Mode where
  /-- Outside quotes. -/
  | bare
  /-- Between single quotes. -/
  | single
  /-- Between double quotes. -/
  | double
  /-- After a backslash outside quotes. -/
  | escaped
  /-- After a backslash between double quotes. -/
  | doubleEscaped
deriving DecidableEq, Repr

/-- The quoting after a character. -/
def Mode.next : Mode → Char → Mode
  | bare, c =>
    if c = '\'' then single else if c = '"' then double else if c = '\\' then escaped else bare
  | single, c => if c = '\'' then bare else single
  | double, c => if c = '"' then bare else if c = '\\' then doubleEscaped else double
  | escaped, _ => bare
  | doubleEscaped, _ => double

/-- The quoting after a text. -/
def Mode.after (m : Mode) (t : Text) : Mode := t.foldl Mode.next m

@[simp] theorem Mode.after_nil (m : Mode) : m.after [] = m := rfl

@[simp] theorem Mode.after_cons (m : Mode) (c : Char) (t : Text) :
    m.after (c :: t) = (m.next c).after t := rfl

@[simp] theorem Mode.after_append (m : Mode) (s t : Text) :
    m.after (s ++ t) = (m.after s).after t := List.foldl_append

/-- Whether a character outside quotes ends a word. -/
def isSeparator (c : Char) : Bool := c = ' ' || c = '\t' || c = '\n'

/-- Reads the rest of a word, with or without a single quote open: its value and what follows it. -/
def readRest (quoted : Bool) : Text → Option (Text × Text)
  | [] => if quoted then none else some ([], [])
  | c :: t =>
    if c = '\'' then readRest (!quoted) t
    else if quoted then (readRest true t).map fun r => (c :: r.1, r.2)
    else if isSeparator c then some ([], c :: t)
    else if c = '\\' then
      match t with
      | [] => none
      | d :: t => (readRest false t).map fun r => (d :: r.1, r.2)
    else (readRest false t).map fun r => (c :: r.1, r.2)

/-- Reads a word: its value and what follows it. -/
def readWord (t : Text) : Option (Text × Text) := readRest false t

end ShellDispatch.Shell
