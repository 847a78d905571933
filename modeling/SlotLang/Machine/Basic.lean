import SlotLang.CodeModule.Basic
import SlotLang.Machine.Error
import SlotLang.Text.Blank

/-!
# The stack machine

The machine has a position in the code, a stack of values, and one value per
slot.  Its step is a function of the module and the state alone: where an
instruction needs the outside world, the transition says what is asked for,
and the run decides how it is answered.

Modules may be malformed, so every operand is checked.  The machine does not
check the type of a value that it stores.

* `MachineState`, `MachineState.start` — the states.
* `Transition` — what a step leads to.
* `CodeModule.step` — one step.
-/

namespace SlotLang

/-- A state of the machine. -/
structure MachineState where
  /-- The index of the next instruction. -/
  position : Nat
  /-- The values on the stack, the top first. -/
  stack : List Value
  /-- The values of the slots. -/
  locals : Array Value
deriving DecidableEq, Repr

/-- What a step of the machine leads to. -/
inductive Transition where
  /-- The machine goes on in this state. -/
  | next (state : MachineState)
  /-- The run is over. -/
  | halt (state : MachineState)
  /-- The run fails. -/
  | fault (error : RuntimeError)
  /-- A line is to be written; then the machine goes on in this state. -/
  | write (line : String) (state : MachineState)
  /-- A line is to be read; then the machine goes on in this state, with the
  line on top of the stack. -/
  | read (state : MachineState)
deriving DecidableEq, Repr

namespace MachineState

/-- The state at the start of a module, with every slot at its zero. -/
def start (m : CodeModule) : MachineState where
  position := 0
  stack := []
  locals := m.locals.map Value.zero

/-- The state with one more value on the stack. -/
def push (state : MachineState) (value : Value) : MachineState :=
  { state with stack := value :: state.stack }

/-- The state at the next instruction, with the given stack. -/
def advance (state : MachineState) (stack : List Value) : MachineState :=
  { state with position := state.position + 1, stack := stack }

/-- Takes the top value off the stack. -/
def take (state : MachineState) : Except RuntimeError (Value × List Value) :=
  match state.stack with
  | value :: rest => .ok (value, rest)
  | [] => .error (.stackUnderflow state.position)

/-- Takes an integer off the stack. -/
def takeInt (state : MachineState) : Except RuntimeError (Int32 × List Value) := do
  match ← state.take with
  | (.int n, rest) => return (n, rest)
  | (.string _, _) => throw (.operandType state.position .int)

/-- Takes a string off the stack. -/
def takeString (state : MachineState) : Except RuntimeError (String × List Value) := do
  match ← state.take with
  | (.string text, rest) => return (text, rest)
  | (.int _, _) => throw (.operandType state.position .string)

/-- Takes two integers off the stack, the upper one second. -/
def takeInts (state : MachineState) : Except RuntimeError (Int32 × Int32 × List Value) := do
  let (second, lower) ← state.takeInt
  let (first, rest) ← { state with stack := lower }.takeInt
  return (first, second, rest)

end MachineState

/-- The integer that a text spells: blanks at the ends, one sign at most, and
digits, with a value of 32 bits. -/
def parseInteger (text : String) : Option Int32 :=
  (Text.Decimal.read (Text.trim text.toList)).bind Text.Decimal.toInt32?

namespace CodeModule

/-- The state that goes on at a target, if the target is an instruction. -/
def goTo (m : CodeModule) (target : UInt32) (state : MachineState) (stack : List Value) :
    Except RuntimeError Transition :=
  if target.toNat < m.code.size then
    .ok (.next { state with position := target.toNat, stack := stack })
  else
    .error (.outOfRange state.position .jumpTarget target)

/-- The call of a host function.  Reading an integer from a text is pure; the
other two calls leave the machine. -/
def hostCall (function : HostFunction) (state : MachineState) :
    Except RuntimeError Transition :=
  match function with
  | .writeLine => do
      let (line, rest) ← state.takeString
      return .write line (state.advance rest)
  | .readLine => .ok (.read (state.advance state.stack))
  | .parseInt => do
      let (text, rest) ← state.takeString
      match parseInteger text with
      | some n => return .next (state.advance (.int n :: rest))
      | none => throw (.invalidInteger text)

/-- What an instruction does. -/
def execute (m : CodeModule) (instruction : Instruction) (state : MachineState) :
    Except RuntimeError Transition :=
  match instruction with
  | .constant index =>
      match m.constants[index.toNat]? with
      | some value => .ok (.next (state.advance (value :: state.stack)))
      | none => .error (.outOfRange state.position .constant index)
  | .loadLocal slot =>
      match state.locals[slot.toNat]? with
      | some value => .ok (.next (state.advance (value :: state.stack)))
      | none => .error (.outOfRange state.position .slot slot)
  | .storeLocal slot => do
      let (value, rest) ← state.take
      if slot.toNat < state.locals.size then
        let stored := { state with locals := state.locals.setIfInBounds slot.toNat value }
        return .next (stored.advance rest)
      else
        throw (.outOfRange state.position .slot slot)
  | .addInt => do
      let (first, second, rest) ← state.takeInts
      return .next (state.advance (.int (first + second) :: rest))
  | .intToString => do
      let (n, rest) ← state.takeInt
      return .next (state.advance (.string (Text.Decimal.ofInt32 n) :: rest))
  | .callHost function => hostCall function state
  | .jump target => m.goTo target state state.stack
  | .branchIfLess target => do
      let (first, second, rest) ← state.takeInts
      if first < second then
        m.goTo target state rest
      else
        return .next (state.advance rest)
  | .ret => .ok (.halt state)

/-- One step of the machine.  A position after the last instruction ends the
run. -/
def step (m : CodeModule) (state : MachineState) : Transition :=
  match m.code[state.position]? with
  | none => .halt state
  | some instruction =>
      match m.execute instruction state with
      | .error error => .fault error
      | .ok transition => transition

end CodeModule

end SlotLang
