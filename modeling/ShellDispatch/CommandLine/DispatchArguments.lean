import ShellDispatch.CommandLine.Word
import ShellDispatch.Dispatcher.Fragment

/-!
# Arguments for writing a dispatcher

The command line names the scripts, in order, and may set each option once, before, between or after
the scripts. Words are taken from left to right, and the first that asks for help or cannot be taken
decides.
-/

namespace ShellDispatch.CommandLine

/-- What a dispatcher is written from. -/
structure DispatchArguments where
  files : List Text := []
  baseCommand : Option Text := none
  helpPreamble : Option Text := none
  exitCodeOnHelp : Option UInt8 := none
  logFile : Option Text := none
deriving DecidableEq, Repr

/-- An option with a value. -/
inductive Setting where
  | baseCommand
  | helpPreamble
  | exitCodeOnHelp
  | logFile
deriving DecidableEq, Repr

namespace Setting

/-- The settings that there are. -/
def all : List Setting := [baseCommand, helpPreamble, exitCodeOnHelp, logFile]

/-- The name of a setting on the command line. -/
def name : Setting → Text
  | baseCommand => "base-command"
  | helpPreamble => "help-preamble"
  | exitCodeOnHelp => "exit-code-on-help"
  | logFile => "log-file"

/-- The setting with this name. -/
def ofName? (t : Text) : Option Setting := all.find? fun s => s.name = t

end Setting

/-- The number that decimal digits stand for. -/
def natural? (digits : Text) : Option Nat :=
  if digits ≠ [] ∧ digits.all Char.isDigit then some (Nat.ofDigitChars 10 digits 0) else none

/-- The exit status that a decimal integer from 0 to 255 stands for; it may have a sign. -/
def exitStatus? (t : Text) : Option UInt8 :=
  let value :=
    match t with
    | '+' :: digits => natural? digits
    | '-' :: digits => (natural? digits).filter (· = 0)
    | digits => natural? digits
  (value.filter (· ≤ 255)).map UInt8.ofNat

namespace DispatchArguments

/-- The options of the dispatcher. -/
def options (a : DispatchArguments) : Dispatcher.Options :=
  let defaults : Dispatcher.Options := {}
  { baseCommand := a.baseCommand
    helpPreamble := a.helpPreamble.getD defaults.helpPreamble
    exitCodeOnHelp := a.exitCodeOnHelp.getD defaults.exitCodeOnHelp }

/-- The arguments with one more script. -/
def addFile (a : DispatchArguments) (path : Text) : Except Rejection DispatchArguments :=
  if path = [] then .error {} else .ok { a with files := a.files ++ [path] }

/-- The arguments with more scripts. -/
def addFiles (a : DispatchArguments) : List Text → Except Rejection DispatchArguments
  | [] => .ok a
  | path :: paths => do
    let next ← a.addFile path
    next.addFiles paths

/-- The arguments with a setting that was not given before. -/
def set (a : DispatchArguments) (setting : Setting) (value : Text) :
    Except Rejection DispatchArguments :=
  match setting with
  | .baseCommand =>
    if a.baseCommand.isSome then .error {} else .ok { a with baseCommand := some value }
  | .helpPreamble =>
    if a.helpPreamble.isSome then .error {} else .ok { a with helpPreamble := some value }
  | .exitCodeOnHelp =>
    match a.exitCodeOnHelp, exitStatus? value with
    | none, some status => .ok { a with exitCodeOnHelp := some status }
    | _, _ => .error {}
  | .logFile =>
    if a.logFile.isSome ∨ value = [] then .error {} else .ok { a with logFile := some value }

/-- What the words ask for after those that gave the arguments `a`. -/
def ofWords (a : DispatchArguments) : List Text → Except Rejection (Request DispatchArguments)
  | [] => .ok (.run a)
  | word :: words =>
    match Word.ofText word with
    | .endOfOptions => (a.addFiles words).map .run
    | .plain path => do
      let next ← a.addFile path
      next.ofWords words
    | .short letters => if letters.head? = some 'h' then .ok .help else .error {}
    | .long name value =>
      if name = "help".toList then
        if value.isNone then .ok .help else .error {}
      else
        match Setting.ofName? name, value, words with
        | none, _, _ => .error {}
        | some setting, some value, words => do
          let next ← a.set setting value
          next.ofWords words
        | some _, none, [] => .error {}
        | some setting, none, value :: words =>
          match Word.ofText value with
          | .plain value => do
            let next ← a.set setting value
            next.ofWords words
          | _ => .error {}

end DispatchArguments

end ShellDispatch.CommandLine
