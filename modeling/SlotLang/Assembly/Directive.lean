import SlotLang.Instruction
import SlotLang.Value

/-!
# Assembly directives

Code before its jumps are resolved.  A directive declares a slot, defines or
marks a label, or emits one instruction; jumps name labels, and constants are
given by value.  Slots and labels are numbered in the order of their
declaration, and the numbers may be arbitrary: what they refer to is checked
when the directives are assembled.
-/

namespace SlotLang

/-- One step in the construction of a module. -/
inductive Directive where
  /-- Declare the next slot. -/
  | declareLocal (type : ValueType)
  /-- Emit the load of a constant. -/
  | loadConstant (constant : Value)
  /-- Emit the load of a slot. -/
  | loadLocal (slot : UInt32)
  /-- Emit the store to a slot. -/
  | storeLocal (slot : UInt32)
  /-- Emit an addition. -/
  | addInt
  /-- Emit the call of a host function. -/
  | callHost (function : HostFunction)
  /-- Emit the conversion of an integer to text. -/
  | intToString
  /-- Define the next label. -/
  | defineLabel
  /-- Let a label stand for the place of the next instruction. -/
  | markLabel (label : UInt32)
  /-- Emit a jump to a label. -/
  | jump (label : UInt32)
  /-- Emit a branch to a label. -/
  | branchIfLess (label : UInt32)
deriving DecidableEq, Repr

end SlotLang
