import ShellDispatch.Script.Line
import ShellDispatch.Command.Basic

/-!
# A script for given commands

`layout` writes commands as the lines of a script: a definition for each, and its documentation in
comments directly below. Line numbers are not written; they follow from the layout.
-/

namespace ShellDispatch.Script

/-- The line that defines a function. -/
def definitionLine (functionName : Text) : Text := "function " ++ functionName ++ "("

/-- The comments that document a command. -/
def commentLines (documentation : Text) : List Text :=
  if documentation = [] then [] else (Text.pieces documentation).map fun t => "# " ++ t

/-- The lines of a script that defines the commands. -/
def layout (commands : List Command) : List Text :=
  commands.flatMap fun c => definitionLine c.functionName :: commentLines c.documentation

end ShellDispatch.Script
