import SlotLang.Machine.Run
import SlotLang.Text.Utf8

/-!
# The console

A host on streams of bytes.  A line read ends after its newline, and all
newlines and carriage returns at its end are dropped; a line written is
followed by a newline.

* `Console` — the bytes left to read and the text written.
* `Console.host` — the host.
-/

namespace SlotLang

/-- The state of a console. -/
structure Console where
  /-- The bytes left to read. -/
  input : List UInt8
  /-- The text written so far. -/
  output : String

namespace Console

/-- The byte of a newline. -/
def newline : UInt8 := 10

/-- The first line of the input with its newline, and the bytes after it. -/
def cutLine : List UInt8 → List UInt8 × List UInt8
  | [] => ([], [])
  | byte :: rest =>
      if byte = newline then
        ([byte], rest)
      else
        let (line, after) := cutLine rest
        (byte :: line, after)

/-- A line without the newlines and carriage returns at its end. -/
def stripLineEnd (line : String) : String :=
  String.ofList (line.toList.reverse.dropWhile fun c => c == '\n' || c == '\r').reverse

/-- The text of a line of bytes. -/
def lineOf (bytes : List UInt8) : Except String String :=
  match Text.ofUtf8? bytes with
  | some line => .ok (stripLineEnd line)
  | none => .error "stream did not contain valid UTF-8"

/-- Writes a line. -/
def write (line : String) (console : Console) : Except String Unit × Console :=
  (.ok (), { console with output := console.output ++ line ++ "\n" })

/-- Reads a line. -/
def read (console : Console) : Except String (Option String) × Console :=
  match console.input with
  | [] => (.ok none, console)
  | bytes =>
      let (line, rest) := cutLine bytes
      ((lineOf line).map some, { console with input := rest })

/-- The host on a console. -/
def host : Host Console where
  write := write
  read := read

end Console

end SlotLang
