import ShellDispatch.CommandLine.Tool

/-!
# The program

The first word of the command line names a tool, the others are its own. What stands at the paths
that the words may name is read before the run, and what the run changed is written after it.
-/

namespace ShellDispatch

/-- The paths that a word of the command line may name: itself, or the value of a long option. -/
def pathsOf (word : Text) : List Text :=
  match CommandLine.Word.ofText word with
  | .long _ (some value) => [word, value]
  | _ => [word]

/-- The tree with what stands at every stage of a path. -/
def observe (tree : File.Tree) (path : Text) : IO File.Tree := do
  let mut tree := tree
  let mut here := tree.origin path
  let mut stages : List Text := []
  for name in File.Tree.names path do
    stages := stages ++ [name]
    here := File.Tree.follow here name
    let stage := (← IO.currentDir) / String.ofList (List.intercalate ['/'] stages)
    if ← stage.isDir then tree := tree.makeDirectory here
    else
      try tree := tree.makeFile here (← IO.FS.readBinFile stage).toList
      catch _ => pure ()
  return tree

/-- Writes the file at a path if the run changed it. -/
def store (before after : File.Tree) (path : Text) : IO Unit := do
  match before.read path, after.read path with
  | .ok old, .ok new =>
    if old ≠ new then IO.FS.writeBinFile (String.ofList path) new.toByteArray
  | .error _, .ok new => IO.FS.writeBinFile (String.ofList path) new.toByteArray
  | _, _ => pure ()

/-- Runs a tool on real files. -/
def runTool (tool : CommandLine.Tool) (words : List Text) : IO UInt32 := do
  let setting := (← IO.getEnv "RUST_LOG").map String.toList
  let start := (File.Tree.names (← IO.currentDir).toString.toList).filter (· ≠ [])
  let paths := words.flatMap pathsOf
  let files ← paths.foldlM observe (File.Tree.populate start [] [])
  let outcome := tool.run words setting files
  for path in paths do
    store files outcome.files path
  (← IO.getStdout).write outcome.output.toByteArray
  match outcome.diagnostics with
  | .refused => IO.eprintln "error: these arguments cannot be understood; try --help"
  | .aborted => IO.eprintln "error: a name is too wide to align the listing"
  | .text t => IO.eprint (String.ofList t)
  return outcome.status.toUInt32

end ShellDispatch

/-- Runs the tool that the first word names. -/
def main (args : List String) : IO UInt32 := do
  match args with
  | "bashi" :: words => ShellDispatch.runTool .dispatch (words.map String.toList)
  | "bazookp" :: words => ShellDispatch.runTool .query (words.map String.toList)
  | _ =>
    IO.eprintln "error: the first word has to be bashi or bazookp"
    return 1
