import ShellDispatch.Log.Logging

/-!
# A session with one log file

A `Session` is a process that installs loggers and reports records. The records of its logger go to
the standard error stream or to the log file. Installing with a file empties the file first, whether
or not the installation then succeeds.
-/

namespace ShellDispatch.Log

/-- Where the records of a logger go. -/
inductive Destination where
  | standardError
  | file
deriving DecidableEq, Repr

/-- The state of a session. -/
structure Session where
  setting : Threshold
  logging : Logging Destination := {}
  /-- The text of the log file, if there is one. -/
  file : Option Text := none
  standardError : Text := []
deriving DecidableEq, Repr

/-- What a session can do. -/
abbrev Step := Call Destination

namespace Session

/-- Appends a text at a destination. -/
def write (s : Session) (text : Text) : Destination → Session
  | .standardError => { s with standardError := s.standardError ++ text }
  | .file => { s with file := some (s.file.getD [] ++ text) }

/-- Creates or empties the log file if a logger with it is to be installed. -/
def prepare (s : Session) : Step → Session
  | .install .file => { s with file := some [] }
  | _ => s

/-- One step of the session. -/
def perform (step : Step) : EStateM AlreadyInstalled Session Unit := fun s =>
  let s := s.prepare step
  match Logging.perform s.setting step s.logging with
  | .ok texts logging =>
    .ok () (texts.foldl (fun s (destination, text) => s.write text destination) { s with logging })
  | .error e logging => .error e { s with logging }

end Session

end ShellDispatch.Log
