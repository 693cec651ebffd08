import ShellDispatch.Command.Basic
import ShellDispatch.Script.Error
import ShellDispatch.Script.Line

/-!
# Scanning a script for commands

A `Scan` is what is known after some lines of a script: the commands found so far, and whether a
comment on the next line is documentation. Documentation goes to the last command; where there is no
command, it is lost. `feed` takes one line and leaves the scan as it was when it fails; `feedAll`
takes a sequence of lines as a reader yields them and stops at the first failure. `scanLines` is the
result for a whole script.
-/

namespace ShellDispatch.Script

/-- What is known after some lines of a script. -/
structure Scan where
  /-- The commands found so far, in the order of their definitions. -/
  commands : List Command := []
  /-- Whether a comment on the next line is documentation. -/
  collecting : Bool := false
deriving DecidableEq, Repr

namespace Scan

/-- The scan after a definition. -/
def begin (s : Scan) (c : Command) : Scan :=
  { commands := s.commands ++ [c], collecting := true }

/-- The scan after a line of documentation. -/
def addDoc (s : Scan) (text : Text) : Scan :=
  match s.commands.getLast? with
  | some c => { s with commands := s.commands.dropLast ++ [c.addDoc text] }
  | none => s

/-- The scan after a comment. -/
def document (s : Scan) (text : Text) : Scan := if s.collecting then s.addDoc text else s

/-- The scan after a line that ends the documentation. -/
def close (s : Scan) : Scan := { s with collecting := false }

@[simp] theorem collecting_begin (s : Scan) (c : Command) : (s.begin c).collecting = true := rfl

@[simp] theorem collecting_close (s : Scan) : s.close.collecting = false := rfl

theorem collecting_addDoc (s : Scan) (text : Text) : (s.addDoc text).collecting = s.collecting := by
  unfold addDoc
  split <;> rfl

@[simp] theorem collecting_document (s : Scan) (text : Text) :
    (s.document text).collecting = s.collecting := by
  unfold document
  split
  · exact collecting_addDoc s text
  · rfl

/-- Takes the line with the given number. -/
def feed (number : Nat) (line : Text) : EStateM ScanError Scan Unit := fun s =>
  match Line.ofText line with
  | .definition identifier => .ok () (s.begin (.define identifier number))
  | .malformed => .error (.malformedDefinition number) s
  | .comment text => .ok () (s.document text)
  | .other => .ok () s.close

theorem feed_eq_of_definition {line identifier : Text}
    (h : Line.ofText line = .definition identifier) (number : Nat) (s : Scan) :
    feed number line s = .ok () (s.begin (.define identifier number)) := by simp only [feed, h]

theorem feed_eq_of_malformed {line : Text} (h : Line.ofText line = .malformed) (number : Nat)
    (s : Scan) : feed number line s = .error (.malformedDefinition number) s := by
  simp only [feed, h]

theorem feed_eq_of_comment {line text : Text} (h : Line.ofText line = .comment text) (number : Nat)
    (s : Scan) : feed number line s = .ok () (s.document text) := by simp only [feed, h]

theorem feed_eq_of_other {line : Text} (h : Line.ofText line = .other) (number : Nat) (s : Scan) :
    feed number line s = .ok () s.close := by simp only [feed, h]

/-- Takes lines numbered from `number` on, up to the first that could not be read. -/
def feedAll (number : Nat) : List (Except File.Failure Text) → EStateM ScanError Scan Unit
  | [] => pure ()
  | .ok line :: rest => do
    feed number line
    feedAll (number + 1) rest
  | .error cause :: _ => throw (.unreadable cause)

@[simp] theorem feedAll_nil (number : Nat) (s : Scan) : feedAll number [] s = .ok () s := rfl

@[simp] theorem feedAll_error (number : Nat) (cause : File.Failure)
    (rest : List (Except File.Failure Text)) (s : Scan) :
    feedAll number (.error cause :: rest) s = .error (.unreadable cause) s := rfl

theorem feedAll_ok_of_feed_ok {number : Nat} {line : Text} {s s₁ : Scan}
    (h : feed number line s = .ok () s₁) (rest : List (Except File.Failure Text)) :
    feedAll number (.ok line :: rest) s = feedAll (number + 1) rest s₁ := by
  simp only [feedAll, bind, EStateM.bind, h]

theorem feedAll_ok_of_feed_error {number : Nat} {line : Text} {s s₁ : Scan} {e : ScanError}
    (h : feed number line s = .error e s₁) (rest : List (Except File.Failure Text)) :
    feedAll number (.ok line :: rest) s = .error e s₁ := by
  simp only [feedAll, bind, EStateM.bind, h]

end Scan

/-- The commands of a script whose lines a reader yields, each a text or a failure. -/
def scanItems (items : List (Except File.Failure Text)) : Except ScanError (List Command) :=
  match Scan.feedAll 1 items {} with
  | .ok _ s => .ok s.commands
  | .error e _ => .error e

/-- The commands of a script with these lines. -/
def scanLines (lines : List Text) : Except ScanError (List Command) :=
  scanItems (lines.map .ok)

end ShellDispatch.Script
