import ShellDispatch.Log.Level

/-!
# Log records

A record is one message with its level and the part of the program that reports it.
-/

namespace ShellDispatch.Log

/-- One message for the log. -/
structure Record where
  level : Level
  target : Text
  message : Text
deriving DecidableEq, Repr

/-- The text of a record in the log, with the newline that ends it. -/
def Record.text (r : Record) : Text :=
  "[" ++ r.level.name ++ "] " ++ r.target ++ " - " ++ r.message ++ "\n"

end ShellDispatch.Log
