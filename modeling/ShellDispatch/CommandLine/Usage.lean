import ShellDispatch.Text.Lines

/-!
# Descriptions of the tools

What each tool shows when it is asked for help, and what it shows after an error in its arguments.
-/

namespace ShellDispatch.CommandLine

/-- The usage line of the tool that writes dispatchers. -/
def dispatchUsage : Text := "Usage: bashi [OPTIONS] [FILES]..."

/-- The description of the tool that writes dispatchers. -/
def dispatchHelp : Text :=
  Text.unlines [
    "Generate command dispatch boilerplate for shell scripts",
    "",
    dispatchUsage,
    "",
    "Arguments:",
    "  [FILES]...  Shell scripts defining `cmd_*` functions, parsed in order",
    "",
    "Options:",
    "      --base-command <BASE_COMMAND>",
    "          Command name shown in the usage line (defaults to `$0` at runtime)",
    "      --help-preamble <HELP_PREAMBLE>",
    "          Heading printed above the command listing [default: Commands]",
    "      --exit-code-on-help <EXIT_CODE_ON_HELP>",
    "          Exit status used after help is shown [default: 1]",
    "      --log-file <LOG_FILE>",
    "          Write logs to this file instead of stderr",
    "  -h, --help",
    "          Print help"]

/-- The first lines of every description of the tool that answers queries. -/
def queryHeading : List Text :=
  ["Answer questions about the commands in a shell script",
    "",
    "Usage: bazookp [OPTIONS] [SCRIPT] [SUBCOMMAND] [ARGS]...",
    "",
    "Arguments:"]

/-- The last lines of every description of the tool that answers queries. -/
def querySubcommands : List Text :=
  ["",
    "Subcommands:",
    "    help [name]",
    "    helpall",
    "    lookup <name>"]

/-- The description of the tool that answers queries. -/
def queryHelp : Text :=
  Text.unlines queryHeading ++ Text.unlines [
    "  [SCRIPT]      Shell script defining `cmd_*` functions",
    "  [SUBCOMMAND]  One of `help`, `helpall` or `lookup`",
    "  [ARGS]...     Arguments for the subcommand",
    "",
    "Options:",
    "      --log-file <LOG_FILE>  Write logs to this file instead of stderr",
    "  -h, --help                 Print help"] ++
    Text.unlines querySubcommands

/-- What the tool that answers queries shows after an error in its arguments. -/
def queryUsage : Text :=
  Text.unlines queryHeading ++ Text.unlines [
    "  [SCRIPT]",
    "          Shell script defining `cmd_*` functions",
    "",
    "  [SUBCOMMAND]",
    "          One of `help`, `helpall` or `lookup`",
    "",
    "  [ARGS]...",
    "          Arguments for the subcommand",
    "",
    "Options:",
    "      --log-file <LOG_FILE>",
    "          Write logs to this file instead of stderr",
    "",
    "  -h, --help",
    "          Print help"] ++
    Text.unlines querySubcommands

end ShellDispatch.CommandLine
