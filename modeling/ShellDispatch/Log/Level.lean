import ShellDispatch.Text.Basic

/-!
# Log levels

A record has a `Level`; a `Threshold` admits the levels up to one of them, or none. A threshold is
set by name, in letters of either case; without a known name only errors and warnings are admitted.
-/

namespace ShellDispatch.Log

/-- How much a record matters, from errors down to traces. -/
inductive Level where
  | error
  | warn
  | info
  | debug
  | trace
deriving DecidableEq, Repr

/-- The levels that are let through. -/
inductive Threshold where
  /-- No level. -/
  | off
  /-- The levels that matter at least as much as this one. -/
  | upTo (level : Level)
deriving DecidableEq, Repr

namespace Level

/-- The levels, those that matter most first. -/
def all : List Level := [error, warn, info, debug, trace]

/-- The place of a level in the order, from one. -/
def rank : Level → Nat
  | error => 1
  | warn => 2
  | info => 3
  | debug => 4
  | trace => 5

/-- The name by which a level is set and shown. -/
def name : Level → Text
  | error => "ERROR"
  | warn => "WARN"
  | info => "INFO"
  | debug => "DEBUG"
  | trace => "TRACE"

end Level

namespace Threshold

/-- The thresholds, from the one that admits nothing on. -/
def all : List Threshold := off :: Level.all.map upTo

/-- The name by which a threshold is set and shown. -/
def name : Threshold → Text
  | off => "OFF"
  | upTo level => level.name

/-- Whether a record of the level is let through. -/
def admits : Threshold → Level → Bool
  | off, _ => false
  | upTo bound, level => level.rank ≤ bound.rank

/-- The threshold with this name, in letters of either case. -/
def ofName? (t : Text) : Option Threshold :=
  all.find? fun threshold => threshold.name = t.map Char.toUpper

/-- The threshold that a setting asks for. -/
def ofSetting (setting : Option Text) : Threshold :=
  (setting.bind ofName?).getD (upTo .warn)

@[simp] theorem admits_off (level : Level) : admits off level = false := rfl

end Threshold

end ShellDispatch.Log
