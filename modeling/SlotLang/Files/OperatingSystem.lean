/-!
# The system that commands run on

A command reads files, writes files and may log what it does.  Where a path
leads, whether a write succeeds and what is logged is decided by the system,
and nothing of this is fixed here.

* `FileError` — why a file cannot be read or written.
* `OperatingSystem` — what commands ask of the system.
-/

namespace SlotLang

/-- Why a file cannot be read or written. -/
inductive FileError where
  /-- Nothing stands at the path. -/
  | notFound
  /-- The path goes through a file. -/
  | notDirectory
  /-- A folder stands at the path. -/
  | isDirectory
  /-- The path, or one of its components, is too long. -/
  | nameTooLong
  /-- The contents are not text. -/
  | invalidText
  /-- Another reason, as the system gives it. -/
  | other (reason : String)
deriving DecidableEq, Repr

/-- The reason in words. -/
def FileError.text : FileError → String
  | notFound => "No such file or directory (os error 2)"
  | notDirectory => "Not a directory (os error 20)"
  | isDirectory => "Is a directory (os error 21)"
  | nameTooLong => "File name too long (os error 36)"
  | invalidText => "stream did not contain valid UTF-8"
  | other reason => reason

/-- What commands ask of the system that they run on, with states of type
`σ`. -/
class OperatingSystem (σ : Type) where
  /-- The contents of the file at a path. -/
  read : String → σ → Except FileError (List UInt8)
  /-- Writes a file at a path.  A write that fails may leave a part of the
  contents behind, so the state after it is the system's own, too. -/
  write : String → List UInt8 → σ → Except FileError Unit × σ
  /-- The log of a command line and its input.  It is empty unless the system
  asks for one. -/
  log : List String → List UInt8 → σ → String

end SlotLang
