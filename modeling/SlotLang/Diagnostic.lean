import SlotLang.Span

/-!
# Diagnostics

What a failure says to the person who reads it: a message, a code that names
the kind of failure, sometimes a hint, and the places in the program text that
it is about.  Every error type of the library has a function to this one.
-/

namespace SlotLang

/-- A place in the program text with a remark on it. -/
structure Label where
  /-- The remark. -/
  text : String
  /-- Byte offset of the place. -/
  offset : Nat
  /-- Byte length of the place. -/
  length : Nat
deriving DecidableEq, Repr

/-- A failure in the words shown to the user. -/
structure Diagnostic where
  /-- The sentence that states the failure. -/
  message : String
  /-- The name of the kind of failure. -/
  code : String
  /-- A hint on how to mend it. -/
  help : Option String
  /-- The places it is about. -/
  labels : List Label
deriving DecidableEq, Repr

/-- A label on a span. -/
def Span.label (span : Span) (text : String) : Label where
  text := text
  offset := span.start
  length := span.length

namespace Diagnostic

/-- A diagnostic without hint and without a place in the text. -/
def plain (code message : String) : Diagnostic where
  message := message
  code := code
  help := none
  labels := []

/-- A diagnostic without hint, at one place in the text. -/
def located (code message : String) (span : Span) (remark : String) : Diagnostic where
  message := message
  code := code
  help := none
  labels := [span.label remark]

end Diagnostic

end SlotLang
