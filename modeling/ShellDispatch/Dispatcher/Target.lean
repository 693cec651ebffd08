import ShellDispatch.Command.Basic

/-!
# Dispatch targets

Several commands may share a name. A dispatcher keeps one target per name: the name has the place of
its first command, and the last command of the name is the one that is called.
-/

namespace ShellDispatch.Dispatcher

/-- What a dispatcher knows about a command. -/
structure Target where
  name : Text
  functionName : Text
  /-- The text that help shows for the name. -/
  documentation : Text
deriving DecidableEq, Repr

/-- The dispatch target of a command. -/
def Target.ofCommand (c : Command) : Target := ⟨c.name, c.functionName, c.documentation⟩

/-- The commands after one more: in place of the first of the same name, or at the end. -/
def place (c : Command) : List Command → List Command
  | [] => [c]
  | d :: ds => if d.name = c.name then c :: ds else d :: place c ds

/-- The commands that are called, one per name. -/
def kept (commands : List Command) : List Command :=
  commands.foldl (fun ds c => place c ds) []

/-- The dispatch targets of the commands. -/
def targets (commands : List Command) : List Target := (kept commands).map .ofCommand

end ShellDispatch.Dispatcher
