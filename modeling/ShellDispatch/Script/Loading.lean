import ShellDispatch.Log.Record
import ShellDispatch.Script.Source

/-!
# Loading scripts from files

A `Host` is what loading needs of its surroundings: a way to read files and a place for log
records. `scanFile` is the commands of one file, `loadScripts` those of several files one after the
other; the first file that cannot be read or scanned ends the loading, and later files are not read.
Every file is scanned by itself, so line numbers start anew and no comment goes to a command of
another file.
-/

namespace ShellDispatch.Script

/-- What loading needs of its surroundings, whose state is of type `σ`. -/
structure Host (σ : Type) where
  /-- The bytes of the file at a path. -/
  read : Text → σ → Except File.Failure Bytes
  /-- The state after a log record. -/
  report : Log.Record → σ → σ

/-- The host that reads from fixed files and collects the records, the last one first. -/
def Host.ofFiles (files : Text → Except File.Failure Bytes) : Host (List Log.Record) where
  read path _ := files path
  report r rs := r :: rs

/-- The records about the commands of a file. -/
def findings (path : Text) (commands : List Command) : List Log.Record :=
  { level := .debug, target := "bashi::parser",
    message := "Found " ++ Text.decimal commands.length ++ " commands in " ++ path } ::
  commands.map fun c =>
    { level := .trace, target := "bashi::parser",
      message := path ++ ":" ++ Text.decimal c.line ++ ": " ++ c.name ++ " -> " ++ c.functionName }

/-- The record about all commands that were loaded. -/
def totals (commands : List Command) (paths : List Text) : Log.Record where
  level := .info
  target := "bashi"
  message := "Loaded " ++ Text.decimal commands.length ++ " commands from " ++
    Text.decimal paths.length ++ " scripts"

variable {σ : Type}

/-- Reports records in order. -/
def Host.reportAll (host : Host σ) (records : List Log.Record) (s : σ) : σ :=
  records.foldl (fun s r => host.report r s) s

/-- The commands of a file. -/
def scanFile (host : Host σ) (path : Text) : EStateM ScanError σ (List Command) := fun s =>
  match host.read path s with
  | .error cause => .error (.inFile path (.unreadable cause)) s
  | .ok bytes =>
    match Source.commands { bytes } with
    | .error e => .error (.inFile path e) s
    | .ok commands => .ok commands (host.reportAll (findings path commands) s)

/-- The commands of files, in order. -/
def scanFiles (host : Host σ) : List Text → EStateM ScanError σ (List Command)
  | [] => pure []
  | path :: paths => do
    let commands ← scanFile host path
    let others ← scanFiles host paths
    return commands ++ others

/-- The commands of files, in order, with a final record about them. -/
def loadScripts (host : Host σ) (paths : List Text) : EStateM ScanError σ (List Command) := do
  let commands ← scanFiles host paths
  modify (host.report (totals commands paths))
  return commands

end ShellDispatch.Script
