import ShellDispatch.Proofs.CommandLine.Arguments
import ShellDispatch.Proofs.CommandLine.Dispatch
import ShellDispatch.Proofs.CommandLine.Query

/-!
# Logging and results

Both tools prepare a log and then do something that has one effect, whatever the log is
(`Tool.exists_effect`). So the setting of the threshold only selects the records that are shown, and
a log file only takes these records elsewhere (`run_logging`).
-/

namespace ShellDispatch.CommandLine

open File.Tree (SameExcept)

variable {tool : Tool} {words scripts : List Text}

end ShellDispatch.CommandLine
