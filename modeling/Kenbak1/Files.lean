/-
  Kenbak1.Files

  Files as their readers see them: what reading the file at a path gives, and why it fails.
-/

namespace Kenbak1

/-- Why a file cannot be read or written. -/
inductive FileFault where
  | notFound
  | denied
  | notADirectory
  | isADirectory
  | nameTooLong
  /-- The name of the file holds a character that no name can hold. -/
  | badName
  /-- The bytes are no UTF-8 text. -/
  | notText
  /-- Something else, in the words of the system. -/
  | other (details : String)
  deriving DecidableEq

/-- The report of a file fault. -/
def FileFault.message : FileFault → String
  | .notFound => "No such file or directory (os error 2)"
  | .denied => "Permission denied (os error 13)"
  | .notADirectory => "Not a directory (os error 20)"
  | .isADirectory => "Is a directory (os error 21)"
  | .nameTooLong => "File name too long (os error 36)"
  | .badName => "file name contained an unexpected NUL byte"
  | .notText => "stream did not contain valid UTF-8"
  | .other details => details

/-- The bytes of the file at each path. -/
abbrev Files := String → Except FileFault (List UInt8)

namespace Files

/-- The text of the file at a path. -/
def text (files : Files) (path : String) : Except FileFault String := do
  let bytes ← files path
  match String.fromUTF8? (ByteArray.mk bytes.toArray) with
  | some text => .ok text
  | none => .error .notText

end Files

end Kenbak1
