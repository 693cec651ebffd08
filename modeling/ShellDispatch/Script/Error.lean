import ShellDispatch.File.Failure

/-!
# Errors of scanning

A scan ends in a `ScanError` at the first line that cannot be read or that begins a definition
without completing it. An error found in a file is wrapped once in the file's path.
-/

namespace ShellDispatch.Script

/-- Why a script has no list of commands. -/
inductive ScanError where
  /-- The definition on this line has no opening parenthesis. -/
  | malformedDefinition (line : Nat)
  /-- The script could not be read. -/
  | unreadable (cause : File.Failure)
  /-- An error met in the file at this path. -/
  | inFile (path : Text) (source : ScanError)
deriving DecidableEq, Repr

namespace ScanError

/-- The text that reports the error. -/
def message : ScanError → Text
  | malformedDefinition line =>
    "Line " ++ Text.decimal line ++ ": missing opening parenthesis in command definition"
  | unreadable cause => "Unable to read script: " ++ cause.message
  | inFile path source => path ++ ": " ++ source.message

/-- The line of the malformed definition, if the error is one. -/
def line? : ScanError → Option Nat
  | malformedDefinition line => some line
  | unreadable _ => none
  | inFile _ source => source.line?

end ScanError

end ShellDispatch.Script
