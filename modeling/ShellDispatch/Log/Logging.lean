import ShellDispatch.Log.Record

/-!
# The state of logging

At most one `Logger` is installed, and it stays. It has a destination and a threshold of its own;
beside it stands a maximum that can be changed at any time. A record reaches the destination if both
admit its level. Before a logger is installed the maximum admits nothing. A `Call` is what a program
can ask of this state, and `perform` answers it with the texts that have to be written.
-/

namespace ShellDispatch.Log

/-- Where an installed logger writes, and what it lets through. -/
structure Logger (δ : Type) where
  destination : δ
  threshold : Threshold
deriving DecidableEq, Repr

/-- The state of logging. -/
structure Logging (δ : Type) where
  logger : Option (Logger δ) := none
  /-- The levels that may be reported at all. -/
  maximum : Threshold := .off
deriving DecidableEq, Repr

/-- The failure to install a second logger. -/
structure AlreadyInstalled where
deriving DecidableEq, Repr

/-- The text that reports a second installation. -/
def AlreadyInstalled.message (_ : AlreadyInstalled) : Text :=
  "attempted to set a logger after the logging system was already initialized"

/-- What a program can ask of the state of logging. -/
inductive Call (δ : Type) where
  | install (destination : δ)
  | report (record : Record)
  | setMaximum (maximum : Threshold)
  /-- Makes sure that everything written has arrived. -/
  | flush
deriving DecidableEq, Repr

namespace Logging

variable {δ : Type}

/-- Installs a logger with the given threshold and makes the threshold the maximum, unless a logger
is installed. -/
def install (destination : δ) (threshold : Threshold) : EStateM AlreadyInstalled (Logging δ) Unit :=
  fun s =>
    match s.logger with
    | none => .ok () { logger := some { destination, threshold }, maximum := threshold }
    | some _ => .error {} s

/-- Whether the installed logger lets records of the level through. -/
def isEnabled (s : Logging δ) (level : Level) : Bool :=
  match s.logger with
  | none => false
  | some logger => logger.threshold.admits level

/-- The destination that a record of the level reaches. -/
def receiver? (s : Logging δ) (level : Level) : Option δ :=
  match s.logger with
  | none => none
  | some logger =>
    if s.maximum.admits level && logger.threshold.admits level then some logger.destination
    else none

/-- Changes the maximum. -/
def setMaximum (s : Logging δ) (maximum : Threshold) : Logging δ := { s with maximum }

/-- Answers a call with the texts to be written, each with its destination. New loggers have the
given threshold. -/
def perform (threshold : Threshold) : Call δ → EStateM AlreadyInstalled (Logging δ) (List (δ × Text))
  | .install destination => do
    install destination threshold
    return []
  | .report record => do
    let s ← get
    return ((s.receiver? record.level).map fun destination => (destination, record.text)).toList
  | .setMaximum maximum => do
    modify (setMaximum · maximum)
    return []
  | .flush => return []

end Logging

end ShellDispatch.Log
