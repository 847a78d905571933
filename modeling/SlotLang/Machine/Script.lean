import SlotLang.Machine.Run

/-!
# Scripted hosts

A host whose lines to read are given in advance and which keeps a record of
every call.  It can be told to refuse the call after a number of successful
ones, and for which reason; a refused call leaves no record.

* `Event` — a call and its answer.
* `Script` — the lines left to read, the record, and when to refuse.
* `Script.host` — the host.
-/

namespace SlotLang

/-- A call of the machine and its answer. -/
inductive Event where
  /-- A line was written. -/
  | wrote (line : String)
  /-- A line was read, or the end of input was met. -/
  | read (line : Option String)
deriving DecidableEq, Repr

/-- The line that an event wrote. -/
def Event.written? : Event → Option String
  | wrote line => some line
  | read _ => none

/-- The state of a scripted host. -/
structure Script where
  /-- The lines left to read. -/
  input : List String
  /-- The calls so far. -/
  events : Array Event
  /-- The number of lines written so far. -/
  writes : Nat
  /-- The number of reads so far. -/
  reads : Nat
  /-- The write after this many is refused. -/
  failWrite : Option Nat
  /-- The read after this many is refused. -/
  failRead : Option Nat
  /-- Why a write is refused. -/
  writeReason : String
  /-- Why a read is refused. -/
  readReason : String
deriving DecidableEq, Repr

namespace Script

/-- The script that has answered no call, with the reasons that it gives. -/
def prepared (input : List String) (failWrite failRead : Option Nat)
    (writeReason readReason : String) : Script where
  input := input
  events := #[]
  writes := 0
  reads := 0
  failWrite := failWrite
  failRead := failRead
  writeReason := writeReason
  readReason := readReason

/-- The script that has answered no call, and gives no further reasons. -/
def start (input : List String) (failWrite failRead : Option Nat) : Script :=
  prepared input failWrite failRead "write refused" "read refused"

/-- The lines written so far. -/
def output (script : Script) : List String :=
  script.events.toList.filterMap Event.written?

/-- Writes a line to the record. -/
def write (line : String) (script : Script) : Except String Unit × Script :=
  if script.failWrite = some script.writes then
    (.error script.writeReason, script)
  else
    (.ok (),
      { script with
        events := script.events.push (.wrote line)
        writes := script.writes + 1 })

/-- Reads the next line of the script. -/
def read (script : Script) : Except String (Option String) × Script :=
  if script.failRead = some script.reads then
    (.error script.readReason, script)
  else
    (.ok script.input.head?,
      { script with
        input := script.input.tail
        events := script.events.push (.read script.input.head?)
        reads := script.reads + 1 })

/-- The scripted host. -/
def host : Host Script where
  write := write
  read := read

end Script

end SlotLang
