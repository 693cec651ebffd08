import ShellDispatch.Text.Blank
import ShellDispatch.Text.Lines

/-!
# Commands

A `Command` is a shell function offered under a name of its own, with the line of its definition
and the comments that document it. `define` derives both names from the identifier in the script,
`addDoc` appends one line of documentation, and `summary` is the first line of what was appended.
-/

namespace ShellDispatch

/-- A documented shell function that can be called by name. -/
structure Command where
  /-- The name a caller writes. -/
  name : Text
  /-- The shell function behind the name. -/
  functionName : Text
  /-- The line of the definition, counted from one. -/
  line : Nat
  /-- The lines of documentation, joined by newlines. -/
  documentation : Text
deriving DecidableEq, Repr

namespace Command

/-- The beginning of every function name that stands for a command. -/
def functionMark : Text := "cmd_"

/-- A name as callers write it: hyphens where the identifier has underscores. -/
def nameOf (identifier : Text) : Text :=
  identifier.map fun c => if c = '_' then '-' else c

/-- The undocumented command that an identifier defines; blanks around the identifier are not part
of it. -/
def define (identifier : Text) (line : Nat) : Command where
  name := nameOf (Text.trim identifier)
  functionName := functionMark ++ Text.trim identifier
  line := line
  documentation := []

/-- A command with one more line of documentation. No separator is written before the first text
that is not empty. -/
def addDoc (c : Command) (text : Text) : Command :=
  { c with
    documentation := if c.documentation = [] then text else c.documentation ++ '\n' :: text }

/-- The first line of the documentation. -/
def summary (c : Command) : Text := Text.firstLine c.documentation

@[simp] theorem name_addDoc (c : Command) (text : Text) : (c.addDoc text).name = c.name := rfl

@[simp] theorem functionName_addDoc (c : Command) (text : Text) :
    (c.addDoc text).functionName = c.functionName := rfl

@[simp] theorem line_addDoc (c : Command) (text : Text) : (c.addDoc text).line = c.line := rfl

theorem documentation_addDoc (c : Command) (text : Text) :
    (c.addDoc text).documentation =
      if c.documentation = [] then text else c.documentation ++ '\n' :: text := rfl

end Command

end ShellDispatch
