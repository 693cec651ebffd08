import ShellDispatch.Text.Basic

/-!
# Failures of reading and writing

The causes for which reading or writing can fail, and the text by which each is reported.
-/

namespace ShellDispatch.File

/-- Why bytes could not be read or written. -/
inductive Failure where
  /-- No entry has the name. -/
  | missing
  /-- The path goes on beyond a file. -/
  | notDirectory
  /-- A directory stands where a file is needed. -/
  | isDirectory
  /-- The path or a part of it exceeds the system's limit. -/
  | nameTooLong
  /-- The path holds a NUL character. -/
  | nulInName
  /-- The bytes of a line are not the UTF-8 form of a text. -/
  | notUtf8
  /-- The receiver takes no more bytes. -/
  | noRoom
  /-- A failure known only by its text. -/
  | other (text : Text)
deriving DecidableEq, Repr

/-- The text that reports a failure. -/
def Failure.message : Failure → Text
  | .missing => "No such file or directory (os error 2)"
  | .notDirectory => "Not a directory (os error 20)"
  | .isDirectory => "Is a directory (os error 21)"
  | .nameTooLong => "File name too long (os error 36)"
  | .nulInName => "file name contained an unexpected NUL byte"
  | .notUtf8 => "stream did not contain valid UTF-8"
  | .noRoom => "failed to write whole buffer"
  | .other text => text

end ShellDispatch.File
