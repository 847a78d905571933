import SlotLang.Instruction
import SlotLang.Value

/-!
# Compiled modules

A module is one procedure without parameters: the types of its slots, its
constants, and its code.  Nothing is assumed about the operands of the code;
a module may come from anywhere, and the machine checks every index it uses.
-/

namespace SlotLang

/-- A compiled program. -/
structure CodeModule where
  /-- The name of the module. -/
  name : String
  /-- The name of its procedure. -/
  entry : String
  /-- The types of the slots. -/
  locals : Array ValueType
  /-- The constants. -/
  constants : Array Value
  /-- The instructions. -/
  code : Array Instruction
deriving DecidableEq, Repr

end SlotLang
