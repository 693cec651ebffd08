import ShellDispatch.Script.Line
import ShellDispatch.Command.Basic

/-!
# The outline of a script

The commands of a script, described without going through it line by line: every definition opens a
block, the comments directly after it document it, and nothing else matters. `outline` is the list
of commands that the blocks describe, `malformedAt?` the first line that makes the description
impossible.
-/

namespace ShellDispatch.Script

/-- The texts of the comments with which lines begin. -/
def leadingComments : List Text → List Text
  | [] => []
  | line :: rest =>
    match Line.ofText line with
    | .comment text => text :: leadingComments rest
    | _ => []

/-- The documentation that comments make up: those before the first text that is not empty say
nothing. -/
def documentationOf (comments : List Text) : Text := Text.join (comments.dropWhile (· = []))

/-- The number of the first malformed definition, if lines are numbered from `number`. -/
def malformedAt? (number : Nat) : List Text → Option Nat
  | [] => none
  | line :: rest =>
    if Line.ofText line = .malformed then some number else malformedAt? (number + 1) rest

/-- The commands that lines define, if lines are numbered from `number`. -/
def outline (number : Nat) : List Text → List Command
  | [] => []
  | line :: rest =>
    match Line.ofText line with
    | .definition identifier =>
      { Command.define identifier number with
        documentation := documentationOf (leadingComments rest) } :: outline (number + 1) rest
    | _ => outline (number + 1) rest

end ShellDispatch.Script
