import ShellDispatch.Command.Basic
import ShellDispatch.Log.Record
import ShellDispatch.Query.Basic
import ShellDispatch.Text.Literal

/-!
# Log records about queries

Every query is reported before it is answered, with the names in it shown as literals.
-/

namespace ShellDispatch.Query

/-- The target of a request for help as the log shows it. -/
def helpText : HelpTarget → Text
  | .unspecified => "NotProvided"
  | .listing => "ProvidedEmpty"
  | .command name => "Provided(" ++ Text.literal name ++ ")"

/-- A query as the log shows it. -/
def text : Query → Text
  | help target => "Help(" ++ helpText target ++ ")"
  | lookup name => "Lookup(" ++ Text.literal name ++ ")"

/-- The record that a query on the commands is about to be answered. -/
def started (q : Query) (commands : List Command) : Log.Record where
  level := .debug
  target := "bashi::inspect"
  message := "Running " ++ q.text ++ " against " ++ Text.decimal commands.length ++ " commands"

/-- The record that a name was looked up in vain. -/
def missed (name : Text) : Log.Record where
  level := .debug
  target := "bazookp"
  message := "No command named " ++ name

end ShellDispatch.Query
