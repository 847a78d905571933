import SlotLang.Proofs.MachineSteps
import SlotLang.Proofs.Results

/-!
# What an instruction does

The step of the machine checks every operand, so it can end in many ways.  A step that does
not fail has found its operands, and then little is left to say: `CodeModule.Executes` has one
case for each instruction, and two for a branch.  What every instruction keeps is proved by
these cases, without the machine.

* `CodeModule.Executes` — an instruction, with its operands and what it leads to.
* `CodeModule.executes_of_execute` — an instruction that does not fail is one of the cases.
* `CodeModule.Executes.step_eq` — and each of them is a step.
* `CodeModule.executes_of_leadsTo` — the instruction of a step after which the run goes on.
-/

namespace SlotLang

/-- What an instruction does in a state that has its operands. -/
inductive CodeModule.Executes (m : CodeModule) (state : MachineState) :
    Instruction → Transition → Prop
  | constant {index : UInt32} {value : Value}
      (hconstant : m.constants[index.toNat]? = some value) :
      Executes m state (.constant index) (.next (state.advance (value :: state.stack)))
  | loadLocal {slot : UInt32} {value : Value}
      (hslot : state.locals[slot.toNat]? = some value) :
      Executes m state (.loadLocal slot) (.next (state.advance (value :: state.stack)))
  | storeLocal {slot : UInt32} {value : Value} {rest : List Value}
      (hstack : state.stack = value :: rest) (hslot : slot.toNat < state.locals.size) :
      Executes m state (.storeLocal slot)
        (.next ⟨state.position + 1, rest, state.locals.setIfInBounds slot.toNat value⟩)
  | addInt {first second : Int32} {rest : List Value}
      (hstack : state.stack = .int second :: .int first :: rest) :
      Executes m state .addInt (.next (state.advance (.int (first + second) :: rest)))
  | intToString {n : Int32} {rest : List Value} (hstack : state.stack = .int n :: rest) :
      Executes m state .intToString
        (.next (state.advance (.string (Text.Decimal.ofInt32 n) :: rest)))
  | writeLine {line : String} {rest : List Value} (hstack : state.stack = .string line :: rest) :
      Executes m state (.callHost .writeLine) (.write line (state.advance rest))
  | readLine : Executes m state (.callHost .readLine) (.read (state.advance state.stack))
  | parseInt {text : String} {n : Int32} {rest : List Value}
      (hstack : state.stack = .string text :: rest) (hparse : parseInteger text = some n) :
      Executes m state (.callHost .parseInt) (.next (state.advance (.int n :: rest)))
  | jump {target : UInt32} (htarget : target.toNat < m.code.size) :
      Executes m state (.jump target) (.next { state with position := target.toNat })
  | branchTaken {target : UInt32} {first second : Int32} {rest : List Value}
      (hstack : state.stack = .int second :: .int first :: rest) (hless : first < second)
      (htarget : target.toNat < m.code.size) :
      Executes m state (.branchIfLess target)
        (.next ⟨target.toNat, rest, state.locals⟩)
  | branchPassed {target : UInt32} {first second : Int32} {rest : List Value}
      (hstack : state.stack = .int second :: .int first :: rest) (hless : ¬ first < second) :
      Executes m state (.branchIfLess target) (.next (state.advance rest))
  | ret : Executes m state .ret (.halt state)

namespace MachineState

variable {state : MachineState} {rest : List Value}

theorem take_eq_ok {value : Value} (htake : state.take = .ok (value, rest)) :
    state.stack = value :: rest := by
  unfold take at htake
  split at htake
  next hstack =>
      cases htake
      exact hstack
  next => cases htake

theorem takeInt_eq_ok {n : Int32} (htake : state.takeInt = .ok (n, rest)) :
    state.stack = .int n :: rest := by
  obtain ⟨⟨value, below⟩, htop, htype⟩ := bind_eq_ok.mp htake
  cases value with
  | int n =>
      cases htype
      exact take_eq_ok htop
  | string text => cases htype

theorem takeString_eq_ok {text : String} (htake : state.takeString = .ok (text, rest)) :
    state.stack = .string text :: rest := by
  obtain ⟨⟨value, below⟩, htop, htype⟩ := bind_eq_ok.mp htake
  cases value with
  | int n => cases htype
  | string text =>
      cases htype
      exact take_eq_ok htop

theorem takeInts_eq_ok {first second : Int32}
    (htake : state.takeInts = .ok (first, second, rest)) :
    state.stack = .int second :: .int first :: rest := by
  obtain ⟨⟨upper, below⟩, hupper, hrest⟩ := bind_eq_ok.mp htake
  obtain ⟨⟨lower, last⟩, hlower, hdone⟩ := bind_eq_ok.mp hrest
  cases hdone
  have hbelow : below = .int first :: rest := takeInt_eq_ok hlower
  rw [takeInt_eq_ok hupper, hbelow]

end MachineState

namespace CodeModule

variable {m : CodeModule} {state state' : MachineState} {instruction : Instruction}
  {transition : Transition}

theorem goTo_eq_ok {target : UInt32} {stack : List Value}
    (hgo : m.goTo target state stack = .ok transition) :
    target.toNat < m.code.size ∧
      transition = .next { state with position := target.toNat, stack := stack } := by
  unfold goTo at hgo
  split at hgo
  next htarget =>
      cases hgo
      exact ⟨htarget, rfl⟩
  next => cases hgo

theorem executes_of_hostCall {function : HostFunction}
    (hcall : hostCall function state = .ok transition) :
    m.Executes state (.callHost function) transition := by
  cases function with
  | writeLine =>
      obtain ⟨⟨line, rest⟩, htake, hdone⟩ := bind_eq_ok.mp hcall
      cases hdone
      exact .writeLine (MachineState.takeString_eq_ok htake)
  | readLine =>
      cases hcall
      exact .readLine
  | parseInt =>
      obtain ⟨⟨text, rest⟩, htake, hdone⟩ := bind_eq_ok.mp hcall
      simp only at hdone
      split at hdone
      next n hparse =>
          cases hdone
          exact .parseInt (MachineState.takeString_eq_ok htake) hparse
      next => cases hdone

/-- An instruction that does not fail has its operands. -/
theorem executes_of_execute (hexecute : m.execute instruction state = .ok transition) :
    m.Executes state instruction transition := by
  cases instruction with
  | constant index =>
      simp only [execute] at hexecute
      split at hexecute
      next value hconstant =>
          cases hexecute
          exact .constant hconstant
      next => cases hexecute
  | loadLocal slot =>
      simp only [execute] at hexecute
      split at hexecute
      next value hslot =>
          cases hexecute
          exact .loadLocal hslot
      next => cases hexecute
  | storeLocal slot =>
      obtain ⟨⟨value, rest⟩, htake, hdone⟩ := bind_eq_ok.mp hexecute
      simp only at hdone
      split at hdone
      next hslot =>
          cases hdone
          exact .storeLocal (MachineState.take_eq_ok htake) hslot
      next => cases hdone
  | addInt =>
      obtain ⟨⟨first, second, rest⟩, htake, hdone⟩ := bind_eq_ok.mp hexecute
      cases hdone
      exact .addInt (MachineState.takeInts_eq_ok htake)
  | intToString =>
      obtain ⟨⟨n, rest⟩, htake, hdone⟩ := bind_eq_ok.mp hexecute
      cases hdone
      exact .intToString (MachineState.takeInt_eq_ok htake)
  | callHost function => exact executes_of_hostCall hexecute
  | jump target =>
      obtain ⟨htarget, rfl⟩ := goTo_eq_ok hexecute
      exact .jump htarget
  | branchIfLess target =>
      obtain ⟨⟨first, second, rest⟩, htake, hdone⟩ := bind_eq_ok.mp hexecute
      have hstack := MachineState.takeInts_eq_ok htake
      simp only at hdone
      split at hdone
      next hless =>
          obtain ⟨htarget, rfl⟩ := goTo_eq_ok hdone
          exact .branchTaken hstack hless htarget
      next hless =>
          cases hdone
          exact .branchPassed hstack hless
  | ret =>
      cases hexecute
      exact .ret

/-- What an instruction does, the machine does that stands at it. -/
theorem Executes.step_eq (hexecutes : m.Executes state instruction transition)
    (hcode : m.code[state.position]? = some instruction) : m.step state = transition := by
  obtain ⟨position, stack, locals⟩ := state
  cases hexecutes with
  | constant hconstant => exact step_constant hcode hconstant
  | loadLocal hslot => exact step_loadLocal hcode hslot
  | storeLocal hstack hslot =>
      obtain rfl : stack = _ := hstack
      exact step_storeLocal hcode hslot
  | addInt hstack =>
      obtain rfl : stack = _ := hstack
      exact step_addInt hcode
  | intToString hstack =>
      obtain rfl : stack = _ := hstack
      exact step_intToString hcode
  | writeLine hstack =>
      obtain rfl : stack = _ := hstack
      exact step_writeLine hcode
  | readLine => exact step_readLine hcode
  | parseInt hstack hparse =>
      obtain rfl : stack = _ := hstack
      exact step_parseInt hcode hparse
  | jump htarget => exact step_jump hcode htarget
  | branchTaken hstack hless htarget =>
      obtain rfl : stack = _ := hstack
      rw [step_branchIfLess hcode htarget, if_pos hless]
  | branchPassed hstack hless =>
      obtain rfl : stack = _ := hstack
      exact step_of_execute hcode (if_neg hless)
  | ret => exact step_ret hcode

/-- A step without a fault executes the instruction at the position, or there is none. -/
theorem executes_of_step (hfault : ∀ error, m.step state ≠ .fault error) :
    (∃ instruction, m.code[state.position]? = some instruction ∧
      m.Executes state instruction (m.step state)) ∨
    m.code[state.position]? = none ∧ m.step state = .halt state := by
  cases hcode : m.code[state.position]? with
  | none => exact .inr ⟨rfl, by simp only [step, hcode]⟩
  | some instruction =>
      cases hexecute : m.execute instruction state with
      | error error => exact absurd (step_of_execute_error hcode hexecute) (hfault error)
      | ok transition =>
          refine .inl ⟨instruction, rfl, ?_⟩
          rw [step_of_execute hcode hexecute]
          exact executes_of_execute hexecute

theorem executes_of_leadsTo (hleads : (m.step state).LeadsTo state') :
    ∃ instruction, m.code[state.position]? = some instruction ∧
      m.Executes state instruction (m.step state) := by
  have hfault : ∀ error, m.step state ≠ .fault error := by
    intro error hstep
    rw [hstep] at hleads
    exact hleads
  rcases executes_of_step hfault with hexecutes | ⟨-, hhalt⟩
  · exact hexecutes
  · rw [hhalt] at hleads
    exact hleads.elim

end CodeModule

end SlotLang
