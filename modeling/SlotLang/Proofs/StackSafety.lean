import SlotLang.Machine.Script
import SlotLang.Proofs.LoweredCode
import SlotLang.Proofs.MachineSteps

/-!
# Compiled code is safe

A point of a module is a position together with the types of the values that
are on the stack there.  `CodeModule.Allows` says, instruction by instruction,
what a point needs so that the machine goes on, and to which points.  A set of
points that is closed under it is kept by every run, whatever the host answers.

The code of a statement has such a set.  It is put together from the sets of its
parts, so the positions inside a loop need no list of their own: the jump into
the loop and the branch back only have to meet the set of the other part.

* `Point`, `CodeModule.Allows` — what the machine needs at a point.
* `CodeModule.runFrom_of_step` — what every step keeps, every run keeps.
* `CodeModule.Flows` — code that can only be left at given points.
* `Placed.flows` — the code of a statement can only be left at its end.
* `CodeModule.SafeAt` — what holds of the machine at every time.
-/

namespace SlotLang

/-! ## What a point needs -/

/-- A position and the types of the values on the stack, the top first. -/
abbrev Point := Nat × List ValueType

/-- The point at which a machine stands. -/
def MachineState.point (state : MachineState) : Point :=
  (state.position, state.stack.map Value.type)

/-- The operands of an instruction are good at a point, and every point that it
leads to is one of `next`. -/
inductive CodeModule.Allows (m : CodeModule) (next : Point → Prop) :
    Instruction → Point → Prop
  | constant {index : UInt32} {value : Value} {position : Nat} {types : List ValueType}
      (hconstant : m.constants[index.toNat]? = some value)
      (hnext : next (position + 1, value.type :: types)) :
      Allows m next (.constant index) (position, types)
  | loadLocal {slot : UInt32} {type : ValueType} {position : Nat} {types : List ValueType}
      (hslot : m.locals[slot.toNat]? = some type)
      (hnext : next (position + 1, type :: types)) :
      Allows m next (.loadLocal slot) (position, types)
  | storeLocal {slot : UInt32} {type : ValueType} {position : Nat} {types : List ValueType}
      (hslot : m.locals[slot.toNat]? = some type) (hnext : next (position + 1, types)) :
      Allows m next (.storeLocal slot) (position, type :: types)
  | addInt {position : Nat} {types : List ValueType}
      (hnext : next (position + 1, .int :: types)) :
      Allows m next .addInt (position, .int :: .int :: types)
  | intToString {position : Nat} {types : List ValueType}
      (hnext : next (position + 1, .string :: types)) :
      Allows m next .intToString (position, .int :: types)
  | writeLine {position : Nat} {types : List ValueType} (hnext : next (position + 1, types)) :
      Allows m next (.callHost .writeLine) (position, .string :: types)
  | readLine {position : Nat} {types : List ValueType}
      (hnext : next (position + 1, .string :: types)) :
      Allows m next (.callHost .readLine) (position, types)
  | parseInt {position : Nat} {types : List ValueType}
      (hnext : next (position + 1, .int :: types)) :
      Allows m next (.callHost .parseInt) (position, .string :: types)
  | jump {target : UInt32} {position : Nat} {types : List ValueType}
      (htarget : target.toNat < m.code.size) (hnext : next (target.toNat, types)) :
      Allows m next (.jump target) (position, types)
  | branchIfLess {target : UInt32} {position : Nat} {types : List ValueType}
      (htarget : target.toNat < m.code.size) (hless : next (target.toNat, types))
      (hnext : next (position + 1, types)) :
      Allows m next (.branchIfLess target) (position, .int :: .int :: types)
  | ret {position : Nat} : Allows m next .ret (position, [])

namespace CodeModule

variable {m : CodeModule}

theorem Allows.mono {next next' : Point → Prop} {instruction : Instruction} {point : Point}
    (hallows : m.Allows next instruction point) (hnext : ∀ point, next point → next' point) :
    m.Allows next' instruction point := by
  cases hallows with
  | constant hconstant h => exact .constant hconstant (hnext _ h)
  | loadLocal hslot h => exact .loadLocal hslot (hnext _ h)
  | storeLocal hslot h => exact .storeLocal hslot (hnext _ h)
  | addInt h => exact .addInt (hnext _ h)
  | intToString h => exact .intToString (hnext _ h)
  | writeLine h => exact .writeLine (hnext _ h)
  | readLine h => exact .readLine (hnext _ h)
  | parseInt h => exact .parseInt (hnext _ h)
  | jump htarget h => exact .jump htarget (hnext _ h)
  | branchIfLess htarget hless h => exact .branchIfLess htarget (hnext _ hless) (hnext _ h)
  | ret => exact .ret

end CodeModule

/-! ## Steps and runs -/

/-- A state good enough to go on from is kept by a transition: a fault comes
from a text that is no integer, and the machine halts at a return. -/
def CodeModule.Keeps (m : CodeModule) (good : MachineState → Prop) : Transition → Prop
  | .next state => good state
  | .halt state => good state ∧ m.code[state.position]? = some .ret
  | .fault error => ∃ text, error = .invalidInteger text
  | .write _ state => good state
  | .read state => ∀ line, good (state.push (.string line))

/-- The errors that the code of a module has no part in. -/
def RuntimeError.FromOutside (error : RuntimeError) : Prop :=
  (∃ text, error = .invalidInteger text) ∨ error = .endOfInput ∨
    ∃ reason, error = .hostFailure reason

/-- An outcome of a run that has kept to good states. -/
def CodeModule.KeepsTo {σ : Type} (m : CodeModule) (good : MachineState → Prop) :
    Outcome σ → Prop
  | .outOfFuel state _ => good state
  | .finished state _ => good state ∧ m.code[state.position]? = some .ret
  | .failed error _ => error.FromOutside

namespace CodeModule

variable {m : CodeModule}

/-- What every step keeps, every run keeps. -/
theorem runFrom_of_step {good : MachineState → Prop}
    (hstep : ∀ state, good state → m.Keeps good (m.step state)) {σ : Type} (host : Host σ)
    (fuel : Nat) {state : MachineState} (hgood : good state) (h : σ) :
    m.KeepsTo good (m.runFrom host fuel state h) := by
  induction fuel generalizing state h with
  | zero => exact hgood
  | succ fuel ih =>
      have hkeeps := hstep state hgood
      simp only [runFrom]
      cases htransition : m.step state with
      | next state' => rw [htransition] at hkeeps; exact ih hkeeps h
      | halt state' => rw [htransition] at hkeeps; exact hkeeps
      | fault error => rw [htransition] at hkeeps; exact .inl hkeeps
      | write line state' =>
          rw [htransition] at hkeeps
          rcases hwrite : host.write line h with ⟨reason | _, h'⟩
          · simp only [hwrite]
            exact .inr (.inr ⟨reason, rfl⟩)
          · simp only [hwrite]
            exact ih hkeeps h'
      | read state' =>
          rw [htransition] at hkeeps
          rcases hread : host.read h with ⟨reason | _ | line, h'⟩
          · exact .inr (.inr ⟨reason, rfl⟩)
          · exact .inr (.inl rfl)
          · exact ih (hkeeps line) h'

end CodeModule

theorem exists_int_of_map_type {stack : List Value} {types : List ValueType}
    (hstack : stack.map Value.type = .int :: types) :
    ∃ n rest, stack = .int n :: rest ∧ rest.map Value.type = types := by
  obtain ⟨value, rest, rfl, htype, hrest⟩ := List.map_eq_cons_iff.mp hstack
  cases value with
  | int n => exact ⟨n, rest, rfl, hrest⟩
  | string text => cases htype

theorem exists_string_of_map_type {stack : List Value} {types : List ValueType}
    (hstack : stack.map Value.type = .string :: types) :
    ∃ text rest, stack = .string text :: rest ∧ rest.map Value.type = types := by
  obtain ⟨value, rest, rfl, htype, hrest⟩ := List.map_eq_cons_iff.mp hstack
  cases value with
  | int n => cases htype
  | string text => exact ⟨text, rest, rfl, hrest⟩

/-- The machine stands at one of the given points, with its slots of the declared
types. -/
structure MachineState.StandsIn (state : MachineState) (m : CodeModule)
    (points : Point → Prop) : Prop where
  point : points state.point
  types : m.Types state.locals

/-- The step of an instruction that its point allows. -/
theorem CodeModule.Allows.keeps {m : CodeModule} {next : Point → Prop}
    {instruction : Instruction} {state : MachineState}
    (hallows : m.Allows next instruction state.point)
    (hcode : m.code[state.position]? = some instruction) (hpoint : next state.point)
    (htypes : m.Types state.locals) : m.Keeps (·.StandsIn m next) (m.step state) := by
  obtain ⟨position, stack, locals⟩ := state
  -- The types at the top of the stack are those that the instruction takes, and they
  -- fix the shape of the values.
  generalize htop : stack.map Value.type = top at hallows
  have hpoint' : MachineState.point ⟨position, stack, locals⟩ = (position, top) := by
    rw [MachineState.point, htop]
  rw [hpoint'] at hallows
  cases hallows with
  | constant hconstant hnext =>
      subst htop
      rw [step_constant hcode hconstant]
      exact ⟨hnext, htypes⟩
  | loadLocal hslot hnext =>
      subst htop
      obtain ⟨value, hvalue, rfl⟩ := htypes.exists_value hslot
      rw [step_loadLocal hcode hvalue]
      exact ⟨hnext, htypes⟩
  | storeLocal hslot hnext =>
      obtain ⟨value, rest, rfl, rfl, rfl⟩ := List.map_eq_cons_iff.mp htop
      obtain ⟨old, hold, -⟩ := htypes.exists_value hslot
      rw [step_storeLocal hcode (Array.getElem?_eq_some_iff.mp hold).choose]
      exact ⟨hnext, htypes.set hslot⟩
  | addInt hnext =>
      obtain ⟨second, rest, rfl, hrest⟩ := exists_int_of_map_type htop
      obtain ⟨first, rest, rfl, rfl⟩ := exists_int_of_map_type hrest
      rw [step_addInt hcode]
      exact ⟨hnext, htypes⟩
  | intToString hnext =>
      obtain ⟨n, rest, rfl, rfl⟩ := exists_int_of_map_type htop
      rw [step_intToString hcode]
      exact ⟨hnext, htypes⟩
  | writeLine hnext =>
      obtain ⟨line, rest, rfl, rfl⟩ := exists_string_of_map_type htop
      rw [step_writeLine hcode]
      exact ⟨hnext, htypes⟩
  | readLine hnext =>
      subst htop
      rw [step_readLine hcode]
      exact fun line => ⟨hnext, htypes⟩
  | parseInt hnext =>
      obtain ⟨text, rest, rfl, rfl⟩ := exists_string_of_map_type htop
      cases hparse : parseInteger text with
      | none =>
          rw [step_parseInt_none hcode hparse]
          exact ⟨text, rfl⟩
      | some n =>
          rw [step_parseInt hcode hparse]
          exact ⟨hnext, htypes⟩
  | jump htarget hnext =>
      subst htop
      rw [step_jump hcode htarget]
      exact ⟨hnext, htypes⟩
  | branchIfLess htarget hless hnext =>
      obtain ⟨second, rest, rfl, hrest⟩ := exists_int_of_map_type htop
      obtain ⟨first, rest, rfl, rfl⟩ := exists_int_of_map_type hrest
      rw [step_branchIfLess hcode htarget]
      by_cases hcompare : first < second
      · rw [if_pos hcompare]
        exact ⟨hless, htypes⟩
      · rw [if_neg hcompare]
        exact ⟨hnext, htypes⟩
  | ret =>
      rw [step_ret hcode]
      exact ⟨⟨hpoint, htypes⟩, hcode⟩

/-! ## Code that is left at given points only -/

/-- From `entry` on, the machine stays at points where it has what it needs, with
at most two values on the stack, until it comes to one of `exits`. -/
def CodeModule.Flows (m : CodeModule) (entry : Point) (exits : Point → Prop) : Prop :=
  ∃ inside : Point → Prop, inside entry ∧
    ∀ point, inside point → point.2.length ≤ 2 ∧
      ∃ instruction, m.code[point.1]? = some instruction ∧
        m.Allows (fun next => inside next ∨ exits next) instruction point

namespace CodeModule

variable {m : CodeModule}

/-- A single instruction. -/
theorem Allows.flows {position : Nat} {types : List ValueType} {exits : Point → Prop}
    {instruction : Instruction} (hallows : m.Allows exits instruction (position, types))
    (hcode : m.code[position]? = some instruction) (hlength : types.length ≤ 2) :
    m.Flows (position, types) exits := by
  refine ⟨(· = (position, types)), rfl, ?_⟩
  rintro point rfl
  exact ⟨hlength, instruction, hcode, hallows.mono fun _ => .inr⟩

/-- Two pieces of code of which each may be left for the beginning of the other. -/
theorem Flows.join {first second : Point} {exits exitsFirst exitsSecond : Point → Prop}
    (hfirst : m.Flows first exitsFirst) (hsecond : m.Flows second exitsSecond)
    (hexitsFirst : ∀ point, exitsFirst point → point = second ∨ exits point)
    (hexitsSecond : ∀ point, exitsSecond point → point = first ∨ exits point) :
    m.Flows first exits := by
  obtain ⟨insideFirst, hinFirst, hclosedFirst⟩ := hfirst
  obtain ⟨insideSecond, hinSecond, hclosedSecond⟩ := hsecond
  refine ⟨fun point => insideFirst point ∨ insideSecond point, .inl hinFirst, ?_⟩
  rintro point (hpoint | hpoint)
  · obtain ⟨hlength, instruction, hcode, hallows⟩ := hclosedFirst point hpoint
    refine ⟨hlength, instruction, hcode, hallows.mono ?_⟩
    rintro next (hnext | hnext)
    · exact .inl (.inl hnext)
    · rcases hexitsFirst next hnext with rfl | hexit
      · exact .inl (.inr hinSecond)
      · exact .inr hexit
  · obtain ⟨hlength, instruction, hcode, hallows⟩ := hclosedSecond point hpoint
    refine ⟨hlength, instruction, hcode, hallows.mono ?_⟩
    rintro next (hnext | hnext)
    · exact .inl (.inr hnext)
    · rcases hexitsSecond next hnext with rfl | hexit
      · exact .inl (.inl hinFirst)
      · exact .inr hexit

theorem Flows.andThen {first second : Point} {exits : Point → Prop}
    (hfirst : m.Flows first (· = second)) (hsecond : m.Flows second exits) :
    m.Flows first exits :=
  hfirst.join hsecond (fun _ => .inl) (fun _ => .inr)

end CodeModule

/-! ## The code of statements -/

section

variable {m : CodeModule} {table : SymbolTable} {position : Nat} {types : List ValueType}

theorem Loads.flows {value : Expression} {type : ValueType}
    (hload : Loads m table position value type) (hlength : types.length ≤ 2) :
    m.Flows (position, types) (· = (position + 1, type :: types)) := by
  cases hload with
  | string text span index hcode hconstant =>
      exact CodeModule.Allows.flows (.constant hconstant rfl) hcode hlength
  | integer n span index hcode hconstant =>
      exact CodeModule.Allows.flows (.constant hconstant rfl) hcode hlength
  | name name span symbol hlookup hslot hcode =>
      exact CodeModule.Allows.flows (.loadLocal hslot rfl) hcode hlength

theorem Stores.flows {name : String} {type : ValueType}
    (hstore : Stores m table position name type) (hlength : types.length ≤ 1) :
    m.Flows (position, type :: types) (· = (position + 1, types)) := by
  obtain ⟨symbol, -, -, hslot, hcode⟩ := hstore
  exact CodeModule.Allows.flows (.storeLocal hslot rfl) hcode (Nat.succ_le_succ hlength)

theorem flows_assign {name : String} {value : Expression} {type : ValueType}
    (hload : Loads m table position value type)
    (hstore : Stores m table (position + 1) name type) :
    m.Flows (position, []) (· = (position + 2, [])) :=
  (hload.flows (by decide)).andThen (hstore.flows (by decide))

theorem flows_write (hcall : m.code[position]? = some (.callHost .writeLine)) :
    m.Flows (position, [.string]) (· = (position + 1, [])) :=
  CodeModule.Allows.flows (.writeLine rfl) hcall (by decide)

/-- The code that adds one to the index of a loop. -/
theorem flows_increment {index : String} {span : Span}
    (hindex : Loads m table position (.name index span) .int)
    (hone : Loads m table (position + 1) (.integer 1 span) .int)
    (hadd : m.code[position + 2]? = some .addInt)
    (hnext : Stores m table (position + 3) index .int) :
    m.Flows (position, []) (· = (position + 4, [])) := by
  have hsum : m.Flows (position + 2, [.int, .int]) (· = (position + 3, [.int])) :=
    CodeModule.Allows.flows (.addInt rfl) hadd (by decide)
  have hloads : m.Flows (position, []) (· = (position + 2, [.int, .int])) :=
    (hindex.flows (by decide)).andThen (hone.flows (by decide))
  exact hloads.andThen (hsum.andThen (hnext.flows (by decide)))

/-- The code that compares the index of a loop with its bound. -/
theorem flows_test {index : String} {upper : Expression} {span : Span} {back : UInt32}
    (hindex : Loads m table position (.name index span) .int)
    (hupper : Loads m table (position + 1) upper .int)
    (hbranch : m.code[position + 2]? = some (.branchIfLess back))
    (hback : back.toNat < m.code.size) :
    m.Flows (position, [])
      fun point => point = (back.toNat, []) ∨ point = (position + 3, []) := by
  have hcompare : m.Flows (position + 2, [.int, .int])
      fun point => point = (back.toNat, []) ∨ point = (position + 3, []) :=
    CodeModule.Allows.flows (.branchIfLess hback (.inl rfl) (.inr rfl)) hbranch (by decide)
  have hloads : m.Flows (position, []) (· = (position + 2, [.int, .int])) :=
    (hindex.flows (by decide)).andThen (hupper.flows (by decide))
  exact hloads.andThen hcompare

/-- The code of a statement can only be left at its end, with an empty stack. -/
theorem Placed.flows {statement : Statement} {start stop : Nat}
    (hplaced : Placed m statement table start stop) :
    m.Flows (start, []) (· = (stop, [])) := by
  induction hplaced with
  | sequence hfirst hsecond ihfirst ihsecond => exact ihfirst.andThen ihsecond
  | declare hload hstore => exact flows_assign hload hstore
  | assign hload hstore => exact flows_assign hload hstore
  | printString hload hcall => exact (hload.flows (by decide)).andThen (flows_write hcall)
  | @printInteger value span table start hload hconvert hcall =>
      have hconverted : m.Flows (start + 1, [.int]) (· = (start + 2, [.string])) :=
        CodeModule.Allows.flows (.intToString rfl) hconvert (by decide)
      exact (hload.flows (by decide)).andThen (hconverted.andThen (flows_write hcall))
  | @readInt name span table start hread hparse hstore =>
      have hline : m.Flows (start, []) (· = (start + 1, [.string])) :=
        CodeModule.Allows.flows (.readLine rfl) hread (by decide)
      have hinteger : m.Flows (start + 1, [.string]) (· = (start + 2, [.int])) :=
        CodeModule.Allows.flows (.parseInt rfl) hparse (by decide)
      exact hline.andThen (hinteger.andThen (hstore.flows (by decide)))
  | @forLoop index lower upper body span table start middle type entry back hlower hinit hjump
      hentry hbody hindex hone hadd hnext htest hupper hbranch hback ih =>
      have hmiddle := hbody.lt
      have hsize := htest.lt_size
      have hround : m.Flows (start + 3, []) (· = (middle + 4, [])) :=
        ih.andThen (flows_increment hindex hone hadd hnext)
      have htested := flows_test htest hupper hbranch (by omega)
      rw [hback] at htested
      -- The test and the round are left for each other, and the test for the end.
      have hloop : m.Flows (middle + 4, []) (· = (middle + 7, [])) :=
        htested.join hround (fun _ => id) (fun _ => .inl)
      have henter : m.Flows (start + 2, []) (· = (middle + 4, [])) :=
        CodeModule.Allows.flows (.jump (by omega) (by rw [hentry])) hjump (by decide)
      exact (flows_assign hlower hinit).andThen (henter.andThen hloop)

end

/-! ## Whole programs -/

/-- What holds of a machine at every time: it stands at an instruction, its slots
have values of the declared types, its stack has at most two values, and none at
a return. -/
structure CodeModule.SafeAt (m : CodeModule) (state : MachineState) : Prop where
  position_lt : state.position < m.code.size
  types : m.Types state.locals
  length_stack_le : state.stack.length ≤ 2
  stack_eq_nil : m.code[state.position]? = some .ret → state.stack = []

section

variable {program : Statement} {name : String} {m : CodeModule}

/-- The code of a compiled program is left at its final return only. -/
theorem Statement.flows_of_compile (hcompile : program.compile name = .ok m)
    (hsize : m.code.size ≤ UInt32.size) : m.Flows (0, []) fun _ => False := by
  obtain ⟨stop, hplaced, hret, -⟩ := program.placed_of_compile hcompile hsize
  exact hplaced.flows.andThen (CodeModule.Allows.flows .ret hret (by decide))

/-- A machine at a point of closed code is safe. -/
theorem MachineState.StandsIn.safeAt {points : Point → Prop} {state : MachineState}
    (hstands : state.StandsIn m points)
    (hclosed : ∀ point, points point → point.2.length ≤ 2 ∧
      ∃ instruction, m.code[point.1]? = some instruction ∧
        m.Allows points instruction point) :
    m.SafeAt state := by
  obtain ⟨hlength, instruction, hcode, hallows⟩ := hclosed state.point hstands.point
  have hcode' : m.code[state.position]? = some instruction := hcode
  refine ⟨?_, hstands.types, ?_, ?_⟩
  · exact (Array.getElem?_eq_some_iff.mp hcode').choose
  · have hmap : (state.stack.map Value.type).length ≤ 2 := hlength
    rwa [List.length_map] at hmap
  · intro hret
    rw [hcode', Option.some.injEq] at hret
    subst hret
    -- A return is allowed on an empty stack only.
    generalize hpoint : state.point = point at hallows
    cases hallows
    have htypes : state.stack.map Value.type = [] := (Prod.mk.inj hpoint).2
    exact List.map_eq_nil_iff.mp htypes

/-- A compiled program is safe.  On every host, whatever it answers, and after any
number of steps, the machine stands at an instruction, every slot holds a value of
its declared type, and the stack holds at most two values and none at a return;
a run that comes to an end comes to a return, and a run that fails does so for a
line that is no integer, for the end of the input or for a refusal of the host. -/
theorem Statement.run_safe (hcompile : program.compile name = .ok m)
    (hsize : m.code.size ≤ UInt32.size) {σ : Type} (host : Host σ) (fuel : Nat) (h : σ) :
    (∀ state h', m.run host fuel h = .outOfFuel state h' → m.SafeAt state) ∧
    (∀ state h', m.run host fuel h = .finished state h' →
      m.SafeAt state ∧ m.code[state.position]? = some .ret) ∧
    ∀ error h', m.run host fuel h = .failed error h' →
      (∃ text, error = .invalidInteger text) ∨ error = .endOfInput ∨
        ∃ reason, error = .hostFailure reason := by
  obtain ⟨inside, hstart, hinside⟩ := program.flows_of_compile hcompile hsize
  -- The code has no exits, so its set of points is closed.
  have hclosed : ∀ point, inside point → point.2.length ≤ 2 ∧
      ∃ instruction, m.code[point.1]? = some instruction ∧
        m.Allows inside instruction point := by
    intro point hpoint
    obtain ⟨hlength, instruction, hcode, hallows⟩ := hinside point hpoint
    exact ⟨hlength, instruction, hcode, hallows.mono fun _ hnext => hnext.resolve_right id⟩
  have hstep : ∀ state : MachineState, state.StandsIn m inside →
      m.Keeps (·.StandsIn m inside) (m.step state) := by
    intro state hstands
    obtain ⟨-, instruction, hcode, hallows⟩ := hclosed state.point hstands.point
    exact hallows.keeps hcode hstands.point hstands.types
  have hzero : (MachineState.start m).StandsIn m inside := ⟨hstart, m.types_zero⟩
  have hrun : m.KeepsTo (·.StandsIn m inside) (m.run host fuel h) :=
    CodeModule.runFrom_of_step hstep host fuel hzero h
  refine ⟨fun state h' heq => ?_, fun state h' heq => ?_, fun error h' heq => ?_⟩
  · rw [heq] at hrun
    exact MachineState.StandsIn.safeAt hrun hclosed
  · rw [heq] at hrun
    exact ⟨hrun.1.safeAt hclosed, hrun.2⟩
  · rw [heq] at hrun
    exact hrun

/-- A loop up to a number that is read, with a name that is an integer in the first
half of its body and a string in the second. -/
def Statement.retyping : Statement :=
  .sequence (.declare "n" (.integer 0 ⟨8, 9⟩) ⟨0, 9⟩)
    (.sequence (.readInt "n" ⟨11, 21⟩)
      (.forLoop "i" (.integer 0 ⟨31, 32⟩) (.name "n" ⟨36, 37⟩)
        (.sequence (.declare "t" (.integer 7 ⟨49, 50⟩) ⟨41, 50⟩)
          (.sequence (.print (.name "t" ⟨58, 59⟩) ⟨52, 59⟩)
            (.sequence (.declare "t" (.string "s" ⟨69, 72⟩) ⟨61, 72⟩)
              (.print (.name "t" ⟨80, 81⟩) ⟨74, 81⟩) ⟨61, 81⟩) ⟨52, 81⟩) ⟨41, 81⟩) ⟨23, 85⟩)
      ⟨11, 85⟩) ⟨0, 85⟩

/-- The module of that program. -/
def CodeModule.retyping : CodeModule where
  name := "retyping"
  entry := "main"
  locals := #[.int, .int, .int, .string]
  constants := #[.int 0, .int 7, .string "s", .int 1]
  code := #[.constant 0, .storeLocal 0, .callHost .readLine, .callHost .parseInt, .storeLocal 0,
    .constant 0, .storeLocal 1, .jump 21, .constant 1, .storeLocal 2, .loadLocal 2, .intToString,
    .callHost .writeLine, .constant 2, .storeLocal 3, .loadLocal 3, .callHost .writeLine,
    .loadLocal 1, .constant 3, .addInt, .storeLocal 1, .loadLocal 1, .loadLocal 0,
    .branchIfLess 8, .ret]

/-- After 22 steps that program stands in front of the addition of its loop, with
two values on the stack. -/
theorem Statement.retyping_run_safe :
    Statement.retyping.compile "retyping" = .ok CodeModule.retyping ∧
      CodeModule.retyping.code.size ≤ UInt32.size ∧
      CodeModule.retyping.run Script.host 22 (Script.start ["1"] none none) =
        .outOfFuel
          ⟨19, [.int 1, .int 0], #[.int 1, .int 0, .int 7, .string "s"]⟩
          { Script.start [] none none with
            events := #[.read (some "1"), .wrote "7", .wrote "s"]
            writes := 2
            reads := 1 } ∧
      CodeModule.retyping.SafeAt
        ⟨19, [.int 1, .int 0], #[.int 1, .int 0, .int 7, .string "s"]⟩ := by
  have hcompile : Statement.retyping.compile "retyping" = .ok CodeModule.retyping :=
    eq_ok_of_toOption (by decide +kernel)
  have hsize : CodeModule.retyping.code.size ≤ UInt32.size := by decide
  have hrun : CodeModule.retyping.run Script.host 22 (Script.start ["1"] none none) =
      .outOfFuel
        ⟨19, [.int 1, .int 0], #[.int 1, .int 0, .int 7, .string "s"]⟩
        { Script.start [] none none with
          events := #[.read (some "1"), .wrote "7", .wrote "s"]
          writes := 2
          reads := 1 } := by with_unfolding_all rfl
  have hsafe := Statement.run_safe hcompile hsize Script.host 22 (Script.start ["1"] none none)
  exact ⟨hcompile, hsize, hrun, hsafe.1 _ _ hrun⟩

end

end SlotLang
