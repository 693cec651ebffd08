import ShellDispatch.CommandLine.DispatchArguments
import ShellDispatch.CommandLine.QueryArguments
import ShellDispatch.CommandLine.Usage
import ShellDispatch.CommandLine.World
import ShellDispatch.Query.Answer
import ShellDispatch.Query.Report

/-!
# The tools

One tool writes the dispatcher for some scripts, the other answers a query on one script.
`Tool.run` is a whole run: from the words of the command line, the setting of the log threshold and
the files, to an `Outcome`. The log file is made before anything else is looked at. A dispatcher is
complete before any of it is written, and a query is understood before its script is read.
-/

namespace ShellDispatch.CommandLine

/-- What a run shows beside its output. -/
inductive Diagnostics where
  /-- The command line was refused. -/
  | refused
  /-- The run was aborted. -/
  | aborted
  | text (t : Text)
deriving DecidableEq, Repr

/-- What is left of a run. -/
structure Outcome where
  status : UInt8
  output : Bytes
  diagnostics : Diagnostics
  files : File.Tree
deriving DecidableEq, Repr

/-! ## Runs with arguments -/

/-- Writes the dispatcher for the scripts. -/
def writeDispatcher (a : DispatchArguments) (threshold : Log.Threshold) : Program Unit := do
  Program.startLogging a.logFile threshold
  if a.files = [] then throw (.usage "Expected one or more files to parse.")
  let commands ← Program.loadScripts a.files
  match Dispatcher.generate commands a.options with
  | .error cause => throw (.overflow cause)
  | .ok script => Program.print script

/-- Reads the query. A faulty one is reported on the standard output stream. -/
def readQuery (subcommand : Text) (words : List Text) : Program Query :=
  match Query.ofWords subcommand words with
  | .ok query => pure query
  | .error .missingName => throw (.usage QueryError.missingName.message)
  | .error e => do
    Program.print (Text.line e.message)
    throw .silent

/-- Ends the run after an answer that could not be given. -/
def endWithout : Answer.Error → Program Unit
  | .lookupMiss name => do
    Program.log (Query.missed name)
    throw .silent
  | .notFound name => do
    Program.print (Text.line (Answer.Error.notFound name).message)
    throw .silent
  | .unwritten cause => throw (.failed cause.message)
  | .overflow cause => throw (.overflow cause)

/-- Writes the answer to a query on the commands. -/
def writeAnswer (commands : List Command) (query : Query) : Program Unit := do
  Program.log (query.started commands)
  fun w =>
    match World.onOutput (Answer.write commands query) w with
    | .ok () w => .ok () w
    | .error e w => endWithout e w

/-- Answers the query on the script. -/
def answerQuery (a : QueryArguments) (threshold : Log.Threshold) : Program Unit := do
  Program.startLogging a.logFile threshold
  match a.script, a.subcommand with
  | none, _ => throw (.usage "Expected a bash file to parse for argument 1.")
  | some _, none => throw (.usage "Expected a subcommand for argument 2.")
  | some script, some subcommand => do
    let query ← readQuery subcommand a.words
    let commands ← Program.scanFile script
    writeAnswer commands query

/-! ## Whole runs -/

/-- The report of an error. -/
def errorLine (message : Text) : Text := Text.line ("Error: " ++ message)

/-- What is left of a run that reached its end or a stop. -/
def Outcome.ofResult (usage : Text) : EStateM.Result Stop World Unit → Outcome
  | .ok () w => ⟨0, w.output.taken, .text w.errorText, w.files⟩
  | .error (.usage message) w =>
    ⟨1, w.output.taken, .text (w.errorText ++ errorLine message ++ Text.line usage), w.files⟩
  | .error (.failed message) w =>
    ⟨1, w.output.taken, .text (w.errorText ++ errorLine message), w.files⟩
  | .error .silent w => ⟨1, w.output.taken, .text w.errorText, w.files⟩
  | .error (.overflow _) w => ⟨101, w.output.taken, .aborted, w.files⟩

/-- What is left of a run whose command line asks for this. -/
def Outcome.ofRequest {α : Type} (help usage : Text) (program : α → Program Unit)
    (files : File.Tree) : Except Rejection (Request α) → Outcome
  | .error _ => ⟨1, [], .refused, files⟩
  | .ok .help => ⟨0, Utf8.encode help, .text [], files⟩
  | .ok (.run a) => .ofResult usage (program a { files })

/-- The tools: one writes dispatchers, one answers queries. -/
inductive Tool where
  | dispatch
  | query
deriving DecidableEq, Repr

/-- A whole run of a tool. -/
def Tool.run (tool : Tool) (words : List Text) (setting : Option Text) (files : File.Tree) :
    Outcome :=
  let threshold := Log.Threshold.ofSetting setting
  match tool with
  | dispatch =>
    .ofRequest dispatchHelp dispatchUsage (writeDispatcher · threshold) files
      (DispatchArguments.ofWords {} words)
  | query =>
    .ofRequest queryHelp queryUsage (answerQuery · threshold) files
      (QueryArguments.ofWords {} words)

end ShellDispatch.CommandLine
