import ShellDispatch.Dispatcher.Target
import ShellDispatch.Command.Listing
import ShellDispatch.Shell.Quote

/-!
# The dispatcher fragment

A `Fragment` is what a dispatcher script says, without its wording: the defaults of its settings,
the rows of its listing and its dispatch targets. `Fragment.pieces` writes it as shell code with
three kinds of parts, so that it can be seen which characters come from outside: shell text of the
dispatcher itself, texts written as single-quoted words, and the names of the functions to call.
`Fragment.text` is the script, to be sourced by the script that defines the functions.

Braces are written by their code in the shell text below.
-/

namespace ShellDispatch.Dispatcher

/-- The defaults that a dispatcher starts from. The script that sources it can override each. -/
structure Options where
  /-- The name shown in the usage line; without it, the name by which the script was called. -/
  baseCommand : Option Text := none
  /-- The heading of the listing. -/
  helpPreamble : Text := "Commands"
  /-- The exit status after help was shown. -/
  exitCodeOnHelp : UInt8 := 1
deriving DecidableEq, Repr

/-- What a dispatcher script says. -/
structure Fragment where
  options : Options
  rows : List Text
  targets : List Target
deriving DecidableEq, Repr

/-- A part of a dispatcher script. -/
inductive Piece where
  /-- Shell text of the dispatcher itself. -/
  | code (text : Text)
  /-- A text from outside, written as a single-quoted word. -/
  | quoted (text : Text)
  /-- The name of a function, written as it stands. -/
  | call (functionName : Text)
deriving DecidableEq, Repr

/-- A part as it stands in the script. -/
def Piece.text : Piece → Text
  | code t => t
  | quoted t => Shell.quote t
  | call f => f

namespace Fragment

/-- The fragment that dispatches to the commands. -/
def ofCommands (commands : List Command) (options : Options) :
    Except Listing.Overflow Fragment := do
  let rows ← Listing.rows commands
  return { options, rows, targets := Dispatcher.targets commands }

/-! ## The settings -/

/-- The start of the line that sets the name for the usage line. -/
def baseCommandCode : Text :=
  Text.line [] ++ "[ -n \"$\x7bbashi_base_command:-\x7d\" ] || bashi_base_command="

/-- The name by which the script was called. -/
def callerCode : Text := "\"$0\""

/-- The start of the line that sets the heading. -/
def helpPreambleCode : Text :=
  Text.line [] ++ "[ -n \"$\x7bbashi_help_preamble:-\x7d\" ] || bashi_help_preamble="

/-- The start of the line that sets the exit status. -/
def exitCodeCode : Text :=
  Text.line [] ++ "bashi_exit_code_on_help=\"$\x7bbashi_exit_code_on_help:-"

/-- The end of the settings, with the hook that runs before help. -/
def hookCode : Text :=
  Text.unlines [
    "\x7d\"",
    "",
    "function on_bashi_help() \x7b",
    "    # Overwrite this to change behavior.",
    "    :",
    "\x7d"]

/-- The settings of a dispatcher. -/
def settings (o : Options) : List Piece :=
  [.code baseCommandCode, o.baseCommand.elim (.code callerCode) .quoted,
   .code helpPreambleCode, .quoted o.helpPreamble,
   .code exitCodeCode, .code (Text.decimal o.exitCodeOnHelp.toNat), .code hookCode]

/-! ## Help -/

/-- The start of the help function, up to the listing. -/
def helpCode : Text :=
  Text.unlines [
    "",
    "function bashi_help() \x7b",
    "    on_bashi_help",
    "    if [ $# -lt 1 ]; then",
    "        if [ \"\" != \"$\x7bbashi_called_help:-\x7d\" ]; then",
    "            echo \"Specify a command to show help for.\"",
    "        else",
    "            echo \"Usage: $\x7bbashi_base_command\x7d [command]\"",
    "        fi",
    "        echo",
    "        echo \"$\x7bbashi_help_preamble\x7d :\""]

/-- A row of the listing. -/
def row (t : Text) : List Piece := [.code "        echo ", .quoted t, .code (Text.line [])]

/-- The part of the help function between the listing and the documentation. -/
def helpCaseCode : Text :=
  Text.unlines [
    "        echo",
    "    else",
    "        case \"$1\" in"]

/-- The documentation of one command. -/
def helpArm (t : Target) : List Piece :=
  [.code "            ", .quoted t.name, .code " ) printf '%s\\n' ", .quoted t.documentation,
   .code (Text.line " ;;")]

/-- The end of the help function. -/
def helpEndCode : Text :=
  Text.unlines [
    "            * ) echo \"$\x7b1\x7d is not a valid command.\"",
    "                shift",
    "                bashi_help",
    "        esac",
    "    fi",
    "    exit \"$\x7bbashi_exit_code_on_help\x7d\"",
    "\x7d"]

/-- The help function of a dispatcher. -/
def help (f : Fragment) : List Piece :=
  .code helpCode :: f.rows.flatMap row ++ .code helpCaseCode :: f.targets.flatMap helpArm ++
    [.code helpEndCode]

/-! ## Dispatch -/

/-- The start of the entry point, up to the commands. -/
def runCode : Text :=
  Text.unlines [
    "",
    "function bashi_run() \x7b",
    "    # Print the available commands",
    "    if [ $# -lt 1 ]; then",
    "        bashi_help",
    "        exit \"$\x7bbashi_exit_code_on_help\x7d\"",
    "    fi",
    "",
    "    case \"$1\" in",
    "        \"help\" ) shift; bashi_called_help=true; bashi_help \"$@\";;",
    "        \"debug\" ) shift; set -o xtrace; bashi_run \"$@\";;"]

/-- The call of one command. -/
def runArm (t : Target) : List Piece :=
  [.code "        ", .quoted t.name, .code " ) ", .call t.functionName, .code (Text.line " ;;")]

/-- The end of the entry point. -/
def runEndCode : Text :=
  Text.unlines [
    "        * ) echo \"$\x7b1\x7d is not a valid command. Use 'help' to see all commands.\"",
    "            exit 1",
    "    esac",
    "\x7d"]

/-- The entry point of a dispatcher. -/
def run (f : Fragment) : List Piece :=
  .code runCode :: f.targets.flatMap runArm ++ [.code runEndCode]

/-! ## The script -/

/-- The parts of the script. -/
def pieces (f : Fragment) : List Piece := settings f.options ++ f.help ++ f.run

/-- The script. -/
def text (f : Fragment) : Text := f.pieces.flatMap Piece.text

end Fragment

/-- The dispatcher script for the commands. -/
def generate (commands : List Command) (options : Options) : Except Listing.Overflow Text :=
  (Fragment.ofCommands commands options).map Fragment.text

end ShellDispatch.Dispatcher
