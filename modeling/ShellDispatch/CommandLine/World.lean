import ShellDispatch.Command.Listing
import ShellDispatch.File.Sink
import ShellDispatch.File.Tree
import ShellDispatch.Log.Logging
import ShellDispatch.Script.Loading

/-!
# The world of a tool

A `World` is everything a run of a tool reads or changes: files, the state of logging and the two
output streams. A log file is a file like any other, so a script at its path is read with the
records written so far. A run ends with a `Stop` where it does not reach its end.
-/

namespace ShellDispatch.CommandLine

/-- Where log records go. -/
inductive LogSink where
  | standardError
  | file (location : File.Location)
deriving DecidableEq, Repr

/-- Everything that a run reads or changes. -/
structure World where
  files : File.Tree
  logging : Log.Logging LogSink := {}
  /-- The standard output stream. -/
  output : File.Sink := {}
  /-- The text written to the standard error stream. -/
  errorText : Text := []
deriving DecidableEq, Repr

/-- Why a run ended before its end. -/
inductive Stop where
  /-- An argument is missing. -/
  | usage (message : Text)
  /-- An error to be reported. -/
  | failed (message : Text)
  /-- A failure about which everything has been said. -/
  | silent
  /-- The rows of a listing cannot be aligned. -/
  | overflow (cause : Listing.Overflow)
deriving DecidableEq, Repr

/-- Actions in the world. -/
abbrev Program := EStateM Stop World

namespace World

/-- Writes the text of a record where the records go. -/
def log (r : Log.Record) (w : World) : World :=
  match w.logging.receiver? r.level with
  | none => w
  | some .standardError => { w with errorText := w.errorText ++ r.text }
  | some (.file location) => { w with files := w.files.append location (Utf8.encode r.text) }

/-- The world as the place from which scripts are loaded. -/
def host : Script.Host World where
  read path w := w.files.read path
  report := log

/-- An action on the standard output stream. -/
def onOutput {ε α : Type} (x : EStateM ε File.Sink α) : EStateM ε World α := fun w =>
  match x w.output with
  | .ok a output => .ok a { w with output }
  | .error e output => .error e { w with output }

/-- An action on the state of logging. -/
def onLogging {ε α : Type} (x : EStateM ε (Log.Logging LogSink) α) : EStateM ε World α := fun w =>
  match x w.logging with
  | .ok a logging => .ok a { w with logging }
  | .error e logging => .error e { w with logging }

end World

namespace Program

/-- Reports a record. -/
def log (r : Log.Record) : Program Unit := modify (World.log r)

/-- Writes a text to the standard output stream. -/
def print (t : Text) : Program Unit :=
  (World.onOutput (File.Sink.write t)).adaptExcept fun cause => .failed cause.message

/-- Empties the log file if there is to be one, and where its records go. -/
def openLog : Option Text → Program LogSink
  | none => pure .standardError
  | some path => fun w =>
    match w.files.create path with
    | .error cause => .error (.failed cause.message) w
    | .ok (location, files) => .ok (.file location) { w with files }

/-- Prepares logging. -/
def startLogging (logFile : Option Text) (threshold : Log.Threshold) : Program Unit := do
  let sink ← openLog logFile
  (World.onLogging (Log.Logging.install sink threshold)).adaptExcept fun e => .failed e.message

/-- The commands of scripts. -/
def loadScripts (paths : List Text) : Program (List Command) :=
  (Script.loadScripts World.host paths).adaptExcept fun e => .failed e.message

/-- The commands of one script. -/
def scanFile (path : Text) : Program (List Command) :=
  (Script.scanFile World.host path).adaptExcept fun e => .failed e.message

end Program

end ShellDispatch.CommandLine
