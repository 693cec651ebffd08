import ShellDispatch.Text.Basic

/-!
# Queries

A `Query` is a question on the commands of one script: for help, or for the function behind a name.
`Query.ofWords` reads it from a subcommand and the words after it. No script is needed for that, so
a faulty question is reported before any script is read.
-/

namespace ShellDispatch

/-- What help is asked about. -/
inductive HelpTarget where
  | unspecified
  | listing
  /-- The command with this name. -/
  | command (name : Text)
deriving DecidableEq, Repr

/-- The target that the first word after the subcommand names. -/
def HelpTarget.ofWord : Option Text → HelpTarget
  | none => unspecified
  | some [] => listing
  | some name => command name

/-- A question on the commands of a script. -/
inductive Query where
  | help (target : HelpTarget)
  | lookup (name : Text)
deriving DecidableEq, Repr

/-- Why words are no query. -/
inductive QueryError where
  | unknownSubcommand (word : Text)
  | missingName
deriving DecidableEq, Repr

/-- The text that reports the error. -/
def QueryError.message : QueryError → Text
  | unknownSubcommand word => "Unknown command " ++ word ++ "."
  | missingName => "Expected a subcommand name for argument 3."

/-- The query that a subcommand and the words after it ask. Only the first of these counts. -/
def Query.ofWords (subcommand : Text) (words : List Text) : Except QueryError Query :=
  if subcommand = "help".toList then .ok (help (.ofWord words.head?))
  else if subcommand = "helpall".toList then .ok (help .listing)
  else if subcommand = "lookup".toList then
    match words.head? with
    | some name => .ok (lookup name)
    | none => .error .missingName
  else .error (.unknownSubcommand subcommand)

end ShellDispatch
