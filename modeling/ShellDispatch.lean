import ShellDispatch.Main
import ShellDispatch.Script.Layout
import ShellDispatch.Proofs.Text.LineStarts
import ShellDispatch.Proofs.Script.Blocks
import ShellDispatch.Proofs.Script.Concatenation
import ShellDispatch.Proofs.Script.Events
import ShellDispatch.Proofs.Script.Loading
import ShellDispatch.Proofs.Script.Source
import ShellDispatch.Proofs.Command.Listing
import ShellDispatch.Proofs.Dispatcher.Lines
import ShellDispatch.Proofs.Dispatcher.Reading
import ShellDispatch.Proofs.Dispatcher.Agreement
import ShellDispatch.Proofs.Dispatcher.Faithful
import ShellDispatch.Proofs.Dispatcher.Quiet
import ShellDispatch.Proofs.Dispatcher.Quotes
import ShellDispatch.Proofs.Dispatcher.Regeneration
import ShellDispatch.Proofs.File.Way
import ShellDispatch.Proofs.Log.Calls
import ShellDispatch.Proofs.CommandLine.Effect
import ShellDispatch.Proofs.CommandLine.Run
import ShellDispatch.Proofs.CommandLine.Arguments
import ShellDispatch.Proofs.CommandLine.Dispatch
import ShellDispatch.Proofs.CommandLine.Query
import ShellDispatch.Proofs.CommandLine.Logging
import ShellDispatch.Proofs.Script.Commands
import ShellDispatch.Proofs.Script.Layout
import ShellDispatch.Proofs.Script.Padding
import ShellDispatch.Proofs.Script.Growth
import ShellDispatch.Proofs.Query.Lookup
import ShellDispatch.Proofs.Dispatcher.Calls
import ShellDispatch.Proofs.Query.CutOff
import ShellDispatch.Proofs.Command.Documentation
import ShellDispatch.Proofs.Script.History
import ShellDispatch.Proofs.Query.Listing
