import SlotLang.Diagnostic
import SlotLang.Text.Quoted
import SlotLang.Value

/-!
# Errors of running modules

A run fails because the input is not what the program asks for, because the
host refuses a call, or because the module is malformed.
-/

namespace SlotLang

/-- What an operand of an instruction refers to. -/
inductive Reference where
  | constant
  | slot
  | jumpTarget
deriving DecidableEq, Repr

/-- A reference in the words of a message. -/
def Reference.text : Reference → String
  | constant => "constant"
  | slot => "local"
  | jumpTarget => "jump target"

/-- Why a run failed.  A position is the index of an instruction. -/
inductive RuntimeError where
  /-- A text that spells no 32-bit integer. -/
  | invalidInteger (input : String)
  /-- A read after the last line. -/
  | endOfInput
  /-- A value was popped from an empty stack. -/
  | stackUnderflow (position : Nat)
  /-- A value of another type than the instruction takes. -/
  | operandType (position : Nat) (expected : ValueType)
  /-- An operand that refers to nothing. -/
  | outOfRange (position : Nat) (reference : Reference) (index : UInt32)
  /-- A call that the host refused. -/
  | hostFailure (reason : String)
deriving DecidableEq, Repr

/-- The error as shown to the user. -/
def RuntimeError.diagnostic : RuntimeError → Diagnostic
  | invalidInteger input =>
      .plain "spek::runtime::invalid_integer"
        ("input string was not in a correct format: " ++ Text.quoted input)
  | endOfInput =>
      .plain "spek::runtime::end_of_input" "end of input reached while reading a line"
  | stackUnderflow position =>
      .plain "spek::runtime::stack_underflow"
        ("stack underflow at instruction " ++ Text.Decimal.ofNat position)
  | operandType position expected =>
      .plain "spek::runtime::operand_type"
        ("instruction " ++ Text.Decimal.ofNat position ++ " expected a " ++ expected.text
          ++ " operand")
  | outOfRange position reference index =>
      .plain "spek::runtime::out_of_range"
        ("instruction " ++ Text.Decimal.ofNat position ++ " refers to missing "
          ++ reference.text ++ " " ++ Text.Decimal.ofNat index.toNat)
  | hostFailure reason =>
      .plain "spek::runtime::io" ("host I/O failed: " ++ reason)

end SlotLang
