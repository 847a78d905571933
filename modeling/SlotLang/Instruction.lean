import SlotLang.Text.Decimal

/-!
# Instructions of the stack machine

Constants, slots and jump targets are named by their index.  Each instruction
has a line of text in a listing and an operation code in a stored module.
-/

namespace SlotLang

/-- What the machine asks of its surroundings, by name. -/
inductive HostFunction where
  /-- Write the string on the stack as a line. -/
  | writeLine
  /-- Read a line onto the stack. -/
  | readLine
  /-- Replace the string on the stack by the integer it spells. -/
  | parseInt
deriving DecidableEq, Repr

/-- The name of a host function. -/
def HostFunction.text : HostFunction → String
  | writeLine => "write_line"
  | readLine => "read_line"
  | parseInt => "parse_int"

/-- The instructions. -/
inductive Instruction where
  /-- Push a constant. -/
  | constant (index : UInt32)
  /-- Push the value of a slot. -/
  | loadLocal (slot : UInt32)
  /-- Pop a value into a slot. -/
  | storeLocal (slot : UInt32)
  /-- Replace two integers by their sum. -/
  | addInt
  /-- Replace an integer by its decimal text. -/
  | intToString
  /-- Call a host function. -/
  | callHost (function : HostFunction)
  /-- Go on at a target. -/
  | jump (target : UInt32)
  /-- Pop two integers, and go on at a target if the lower one is less. -/
  | branchIfLess (target : UInt32)
  /-- Stop. -/
  | ret
deriving DecidableEq, Repr

namespace Instruction

/-- The instruction as shown in a listing. -/
def text : Instruction → String
  | constant index => "const #" ++ Text.Decimal.ofNat index.toNat
  | loadLocal slot => "load $" ++ Text.Decimal.ofNat slot.toNat
  | storeLocal slot => "store $" ++ Text.Decimal.ofNat slot.toNat
  | addInt => "add"
  | intToString => "int_to_string"
  | callHost function => "call " ++ function.text
  | jump target => "jump @" ++ Text.Decimal.ofNat target.toNat
  | branchIfLess target => "branch_lt @" ++ Text.Decimal.ofNat target.toNat
  | ret => "ret"

/-- The operation code of an instruction. -/
def opcode : Instruction → UInt8
  | constant _ => 0
  | loadLocal _ => 1
  | storeLocal _ => 2
  | addInt => 3
  | intToString => 4
  | callHost _ => 5
  | jump _ => 6
  | branchIfLess _ => 7
  | ret => 8

end Instruction

end SlotLang
