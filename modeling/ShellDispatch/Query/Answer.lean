import ShellDispatch.Query.Basic
import ShellDispatch.File.Sink
import ShellDispatch.Command.Listing

/-!
# Answers

`Answer.write` writes the answer to a query on a list of commands to a sink. Of several commands
with one name the last is meant. The instruction before a listing is written before the listing is
laid out, and rows are written one after the other, so a sink without room for all of it keeps what
came first. An unknown name is found out before anything is written.
-/

namespace ShellDispatch.Answer

/-- Why a query has no complete answer. -/
inductive Error where
  | notFound (name : Text)
  | lookupMiss (name : Text)
  | unwritten (cause : File.Failure)
  | overflow (cause : Listing.Overflow)
deriving DecidableEq, Repr

/-- The text that reports the error. -/
def Error.message : Error → Text
  | notFound name => name ++ " is not a valid command. Use 'help' to see all commands."
  | lookupMiss name => "no command named " ++ name
  | unwritten cause => cause.message
  | overflow cause => "a name of " ++ Text.decimal cause.width ++ " characters is too wide to align"

/-- Actions that write to a sink until something fails. -/
abbrev Printing := EStateM Error File.Sink

/-- Writes a text and a newline. -/
def printLine (t : Text) : Printing Unit := (File.Sink.write (Text.line t)).adaptExcept .unwritten

/-- Writes texts, each with a newline. -/
def printLines : List Text → Printing Unit
  | [] => pure ()
  | t :: ts => do
    printLine t
    printLines ts

/-- The command that a name stands for: the last one of that name. -/
def find? (commands : List Command) (name : Text) : Option Command :=
  commands.reverse.find? fun c => c.name = name

/-- What the listing of a script without commands shows. -/
def emptyPicture : Text :=
  Text.unlines [
    "",
    "                                       \\   ^",
    "    erm... uhm... it's empty...?      o   O  ... ?",
    "                                       _--_-",
    "                                        |\\\\",
    "                                         /|    ...?!!"]

/-- The advice above a listing that was not asked for by name. -/
def instruction : Text := "Specify a command to see more information (if available)."

/-- Writes the listing and an empty line. -/
def listing (commands : List Command) : Printing Unit :=
  if commands = [] then printLine emptyPicture
  else
    match Listing.rows commands with
    | .error cause => throw (.overflow cause)
    | .ok rows => do
      printLines rows
      printLine []

/-- Writes what help has to say about a target. -/
def help (commands : List Command) : HelpTarget → Printing Unit
  | .unspecified => do
    printLine instruction
    listing commands
  | .listing => listing commands
  | .command name =>
    match find? commands name with
    | none => throw (.notFound name)
    | some c => do
      printLine c.documentation
      printLine []

/-- Writes the function that a name calls. -/
def lookup (commands : List Command) (name : Text) : Printing Unit :=
  match find? commands name with
  | none => throw (.lookupMiss name)
  | some c => printLine c.functionName

/-- Writes the answer to a query. -/
def write (commands : List Command) : Query → Printing Unit
  | .help target => help commands target
  | .lookup name => lookup commands name

end ShellDispatch.Answer
