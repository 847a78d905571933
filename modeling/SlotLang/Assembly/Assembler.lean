import SlotLang.Assembly.Error
import SlotLang.Assembly.Directive
import SlotLang.CodeModule.Basic

/-!
# Assembling directives

An assembler takes directives one by one.  Until the end its jumps hold label
numbers in place of targets.  Equal constants share one entry of the pool, in
the order of their first use.  A label that is marked wrongly is remembered,
the first one only, and reported at the end before anything else; then jumps
are resolved in code order, and one final return is added.

* `Assembler.apply` — the state after a directive.
* `Assembler.reply` — the number that a directive hands out.
* `Assembler.finish` — the module, once all directives are in.
* `assemble` — the module of a list of directives.
-/

namespace SlotLang

/-- A module under construction. -/
structure Assembler where
  /-- The types of the slots so far. -/
  locals : Array ValueType
  /-- The constants so far. -/
  constants : Array Value
  /-- The instructions so far, with labels in place of jump targets. -/
  code : Array Instruction
  /-- The place of each label, if it has one. -/
  labels : Array (Option UInt32)
  /-- The first wrong mark. -/
  fault : Option AssemblyError
deriving DecidableEq, Repr

namespace Assembler

/-- The assembler that has taken no directive. -/
def empty : Assembler where
  locals := #[]
  constants := #[]
  code := #[]
  labels := #[]
  fault := none

/-- One more instruction. -/
def emit (a : Assembler) (instruction : Instruction) : Assembler :=
  { a with code := a.code.push instruction }

/-- The load of a constant, which joins the pool if it is new. -/
def loadConstant (a : Assembler) (constant : Value) : Assembler :=
  match a.constants.idxOf? constant with
  | some index => a.emit (.constant (UInt32.ofNat index))
  | none =>
      { a with constants := a.constants.push constant }.emit
        (.constant (UInt32.ofNat a.constants.size))

/-- Remembers a wrong mark, unless there was one before. -/
def blame (a : Assembler) (error : AssemblyError) : Assembler :=
  { a with fault := a.fault.or (some error) }

/-- Gives a label the place of the next instruction. -/
def placeLabel (a : Assembler) (label : UInt32) : Assembler :=
  match a.labels[label.toNat]? with
  | some none =>
      { a with labels := a.labels.setIfInBounds label.toNat (some (UInt32.ofNat a.code.size)) }
  | some (some _) => a.blame (.labelMarkedTwice label)
  | none => a.blame (.unknownLabel label)

/-- The state after a directive. -/
def apply (a : Assembler) : Directive → Assembler
  | .declareLocal type => { a with locals := a.locals.push type }
  | .loadConstant constant => a.loadConstant constant
  | .loadLocal slot => a.emit (.loadLocal slot)
  | .storeLocal slot => a.emit (.storeLocal slot)
  | .addInt => a.emit .addInt
  | .callHost function => a.emit (.callHost function)
  | .intToString => a.emit .intToString
  | .defineLabel => { a with labels := a.labels.push none }
  | .markLabel label => a.placeLabel label
  | .jump label => a.emit (.jump label)
  | .branchIfLess label => a.emit (.branchIfLess label)

/-- The number of the slot or label that a directive introduces. -/
def reply (a : Assembler) : Directive → Option UInt32
  | .declareLocal _ => some (UInt32.ofNat a.locals.size)
  | .defineLabel => some (UInt32.ofNat a.labels.size)
  | _ => none

/-- The state after a list of directives. -/
def applyAll (a : Assembler) (directives : List Directive) : Assembler :=
  directives.foldl apply a

/-- The numbers handed out by a list of directives, one by one. -/
def replies (a : Assembler) : List Directive → List (Option UInt32)
  | [] => []
  | directive :: rest => a.reply directive :: (a.apply directive).replies rest

/-- The place of a label. -/
def target (a : Assembler) (label : UInt32) : Except AssemblyError UInt32 :=
  match a.labels[label.toNat]? with
  | some (some target) => .ok target
  | _ => .error (.unmarkedLabel label)

/-- The instruction with its label replaced by the label's place. -/
def link (a : Assembler) : Instruction → Except AssemblyError Instruction
  | .jump label => (a.target label).map .jump
  | .branchIfLess label => (a.target label).map .branchIfLess
  | instruction => .ok instruction

/-- The module with the given name and entry. -/
def finish (a : Assembler) (name entry : String) : Except AssemblyError CodeModule :=
  match a.fault with
  | some error => .error error
  | none => do
      let code ← a.code.toList.mapM a.link
      return { name, entry, locals := a.locals, constants := a.constants,
               code := code.toArray.push .ret }

end Assembler

/-- The module that a list of directives describes. -/
def assemble (name entry : String) (directives : List Directive) :
    Except AssemblyError CodeModule :=
  (Assembler.empty.applyAll directives).finish name entry

end SlotLang
