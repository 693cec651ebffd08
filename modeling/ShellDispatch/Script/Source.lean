import ShellDispatch.Script.Scan
import ShellDispatch.Text.Utf8

/-!
# Reading a script line by line

A `Source` is what a reader yields: bytes, and possibly a failure in place of the end of input. A
complete line ends in a newline, which is removed together with one carriage return directly before
it. What follows the last newline is a line only if it is not empty and the input ends there; it
keeps its carriage return. Each line has to be readable by itself, so the lines before a bad one are
scanned all the same.
-/

namespace ShellDispatch.Script

/-- What a reader yields. -/
structure Source where
  bytes : Bytes
  /-- The failure after the bytes, where it is not the end of input that follows. -/
  failure : Option File.Failure := none

namespace Source

/-- The byte that ends a line. -/
def newline : UInt8 := 0x0A

/-- The byte that belongs to the line ending if it stands directly before the newline. -/
def carriageReturn : UInt8 := 0x0D

/-- The text of a line. -/
def decodeLine (b : Bytes) : Except File.Failure Text :=
  match Utf8.decode b with
  | some t => .ok t
  | none => .error .notUtf8

/-- The bytes of the complete lines, without their line endings. -/
def completeLines (b : Bytes) : List Bytes :=
  (b.splitOn newline).dropLast.map (Text.dropFinal carriageReturn)

/-- The bytes after the last newline. -/
def unfinishedLine (b : Bytes) : Bytes := (b.splitOn newline).getLastD []

/-- What the reader yields after the complete lines. -/
def ending (s : Source) : List (Except File.Failure Text) :=
  match s.failure with
  | some cause => [.error cause]
  | none => if unfinishedLine s.bytes = [] then [] else [decodeLine (unfinishedLine s.bytes)]

/-- The lines that the reader yields, each a text or a failure. -/
def items (s : Source) : List (Except File.Failure Text) :=
  (completeLines s.bytes).map decodeLine ++ s.ending

/-- The commands of the script that the reader yields. -/
def commands (s : Source) : Except ScanError (List Command) := scanItems s.items

end Source

end ShellDispatch.Script
