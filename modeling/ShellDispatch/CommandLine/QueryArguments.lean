import ShellDispatch.CommandLine.Word

/-!
# Arguments for a query

The command line names a script, a subcommand and the words of the query, in this order, and may
name a log file before the words of the query. A word that looks like an option and is none can only
begin the words of the query. Once these have begun, every word belongs to them.
-/

namespace ShellDispatch.CommandLine

/-- What is asked about which script. -/
structure QueryArguments where
  script : Option Text := none
  subcommand : Option Text := none
  words : List Text := []
  logFile : Option Text := none
deriving DecidableEq, Repr

/-- What a word means where an option may stand. -/
inductive QueryOption where
  /-- The request for the description of the tool. -/
  | help
  /-- The log file, with the value written in the same word. -/
  | logFile (value : Option Text)
  /-- An option that takes no value, written with one. -/
  | excessValue
  /-- An option that does not exist. -/
  | unknown
deriving DecidableEq, Repr

namespace QueryOption

/-- What a long option means. -/
def ofLong (name : Text) (value : Option Text) : QueryOption :=
  if name = "help".toList then if value.isNone then help else excessValue
  else if name = "log-file".toList then logFile value
  else unknown

end QueryOption

namespace QueryArguments

/-- Whether the next word that is no option begins the words of the query. -/
def awaitsWords (a : QueryArguments) : Bool := a.script.isSome && a.subcommand.isSome

/-- The arguments with the script or the subcommand. -/
def addPlain (a : QueryArguments) (t : Text) : Except Rejection QueryArguments :=
  match a.script with
  | none => if t = [] then .error {} else .ok { a with script := some t }
  | some _ => .ok { a with subcommand := some t }

/-- The arguments when no word is an option any more. -/
def addRest (a : QueryArguments) : List Text → Except Rejection QueryArguments
  | [] => .ok a
  | t :: ts =>
    if a.awaitsWords then .ok { a with words := t :: ts }
    else do
      let next ← a.addPlain t
      next.addRest ts

/-- The arguments with a log file that was not given before. -/
def setLogFile (a : QueryArguments) (value : Text) : Except Rejection QueryArguments :=
  if a.logFile.isSome ∨ value = [] then .error {} else .ok { a with logFile := some value }

/-- Whether a word can be the value of the option before it. Where the words of the query are
awaited, a word that only looks like an option can. -/
def isValue (a : QueryArguments) (word : Text) : Bool :=
  match Word.ofText word with
  | .endOfOptions => false
  | .plain _ => true
  | .long name value => a.awaitsWords && QueryOption.ofLong name value = .unknown
  | .short letters => a.awaitsWords && letters.any (· ≠ 'h')

/-- What the words ask for after those that gave the arguments `a`. -/
def ofWords (a : QueryArguments) : List Text → Except Rejection (Request QueryArguments)
  | [] => .ok (.run a)
  | word :: words =>
    match Word.ofText word with
    | .endOfOptions => (a.addRest words).map .run
    | .plain t =>
      if a.awaitsWords then .ok (.run { a with words := word :: words })
      else do
        let next ← a.addPlain t
        next.ofWords words
    | .short letters =>
      if a.awaitsWords then
        if letters.all (· = 'h') then .ok .help
        else .ok (.run { a with words := word :: words })
      else if letters.head? = some 'h' then .ok .help
      else .error {}
    | .long name value =>
      match QueryOption.ofLong name value, words with
      | .help, _ => .ok .help
      | .excessValue, _ => .error {}
      | .unknown, words =>
        if a.awaitsWords then .ok (.run { a with words := word :: words }) else .error {}
      | .logFile (some value), words => do
        let next ← a.setLogFile value
        next.ofWords words
      | .logFile none, [] => .error {}
      | .logFile none, value :: words =>
        if a.isValue value then do
          let next ← a.setLogFile value
          next.ofWords words
        else .error {}

end QueryArguments

end ShellDispatch.CommandLine
