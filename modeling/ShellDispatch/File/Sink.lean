import ShellDispatch.File.Failure
import ShellDispatch.Text.Utf8

/-!
# Sinks

A `Sink` takes bytes, either any number of them or a fixed number in all. What does not fit is cut
off at the last byte that does, and the write fails.
-/

namespace ShellDispatch.File

/-- A receiver of bytes. -/
structure Sink where
  /-- The bytes taken so far. -/
  taken : Bytes := []
  /-- How many more bytes are taken; without a bound, any number. -/
  room : Option Nat := none
deriving DecidableEq, Repr

/-- Writes a text. -/
def Sink.write (text : Text) : EStateM Failure Sink Unit := fun s =>
  let b := Utf8.encode text
  match s.room with
  | none => .ok () { s with taken := s.taken ++ b }
  | some k =>
    if b.length ≤ k then .ok () { taken := s.taken ++ b, room := some (k - b.length) }
    else .error .noRoom { taken := s.taken ++ b.take k, room := some 0 }

end ShellDispatch.File
