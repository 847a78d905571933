import SlotLang.Machine.Script

/-!
# Steps and runs of the machine

One lemma for each instruction says what the step does when its operands are
good.  `CodeModule.Leads` says that a run goes from one state to another in a
number of steps; it is the run itself with that number for its bound, so it
composes, and it decides how every longer run goes on.  `Transition.LeadsTo` is the
part of a step that no host decides.

`CodeModule.Types` says that every slot holds a value of its declared type, as
it does at the start.  `Host.logged` is a host that also keeps a list of its
calls with their answers.  Runs on it show which calls are made, also where a
run does not end.  `Host.Records` says of any host that its calls add to a record.
-/

namespace SlotLang

/-- The states in which a run may go on after a transition. -/
def Transition.LeadsTo : Transition → MachineState → Prop
  | next state, state' => state' = state
  | write _ state, state' => state' = state
  | read state, state' => ∃ line, state' = state.push (.string line)
  | halt _, _ => False
  | fault _, _ => False

namespace CodeModule

variable {σ : Type} {m : CodeModule} {host : Host σ}

/-! ## Runs in parts -/

/-- After exactly `steps` steps the run is in the second state and goes on. -/
def Leads (m : CodeModule) (host : Host σ) (steps : Nat) (a b : MachineState × σ) : Prop :=
  m.runFrom host steps a.1 a.2 = .outOfFuel b.1 b.2

theorem Leads.refl (a : MachineState × σ) : m.Leads host 0 a a := rfl

/-- A run goes on from the state that its first steps lead to. -/
theorem Leads.runFrom_add {steps : Nat} {a b : MachineState × σ}
    (hleads : m.Leads host steps a b) (fuel : Nat) :
    m.runFrom host (steps + fuel) a.1 a.2 = m.runFrom host fuel b.1 b.2 := by
  obtain ⟨state, h⟩ := a
  induction steps generalizing state h with
  | zero =>
      cases hleads
      rw [Nat.zero_add]
  | succ steps ih =>
      -- Both bounds lose one step, and both runs take it in the same way.
      rw [show steps + 1 + fuel = (steps + fuel) + 1 by omega]
      unfold Leads at hleads
      simp only [runFrom] at hleads ⊢
      cases hstep : m.step state with
      | next state' =>
          rw [hstep] at hleads
          exact ih state' h hleads
      | halt state' => rw [hstep] at hleads; cases hleads
      | fault error => rw [hstep] at hleads; cases hleads
      | write line state' =>
          simp only [hstep] at hleads ⊢
          rcases hwrite : host.write line h with ⟨reason | _, h'⟩
          · rw [hwrite] at hleads; cases hleads
          · rw [hwrite] at hleads
            exact ih state' h' hleads
      | read state' =>
          simp only [hstep] at hleads ⊢
          rcases hread : host.read h with ⟨reason | _ | line, h'⟩
          · rw [hread] at hleads; cases hleads
          · rw [hread] at hleads; cases hleads
          · rw [hread] at hleads
            exact ih _ h' hleads

theorem Leads.trans {first second : Nat} {a b c : MachineState × σ}
    (hab : m.Leads host first a b) (hbc : m.Leads host second b c) :
    m.Leads host (first + second) a c :=
  (hab.runFrom_add second).trans hbc

theorem Leads.of_next {state state' : MachineState} (hstep : m.step state = .next state')
    (h : σ) : m.Leads host 1 (state, h) (state', h) := by
  simp only [Leads, runFrom, hstep]

theorem Leads.of_write {state state' : MachineState} {line : String} {h h' : σ}
    (hstep : m.step state = .write line state') (hwrite : host.write line h = (.ok (), h')) :
    m.Leads host 1 (state, h) (state', h') := by
  simp only [Leads, runFrom, hstep, hwrite]

theorem Leads.of_read {state state' : MachineState} {line : String} {h h' : σ}
    (hstep : m.step state = .read state') (hread : host.read h = (.ok (some line), h')) :
    m.Leads host 1 (state, h) (state'.push (.string line), h') := by
  simp only [Leads, runFrom, hstep, hread]

/-- One step of a run that is not over: it fails, or goes on in a state that the
transition leads to. -/
theorem runFrom_succ_of_not_halt {state : MachineState}
    (hhalt : ∀ state', m.step state ≠ .halt state') (host : Host σ) (h : σ) :
    (∃ error h', ∀ fuel, m.runFrom host (fuel + 1) state h = .failed error h') ∨
      ∃ state' h', (m.step state).LeadsTo state' ∧
        ∀ fuel, m.runFrom host (fuel + 1) state h = m.runFrom host fuel state' h' := by
  simp only [runFrom]
  cases hstep : m.step state with
  | next state' => exact .inr ⟨state', h, rfl, fun _ => rfl⟩
  | halt state' => exact absurd hstep (hhalt state')
  | fault error => exact .inl ⟨error, h, fun _ => rfl⟩
  | write line state' =>
      rcases hwrite : host.write line h with ⟨reason | _, h'⟩
      · exact .inl ⟨.hostFailure reason, h', fun _ => by simp only [hwrite]⟩
      · exact .inr ⟨state', h', rfl, fun _ => by simp only [hwrite]⟩
  | read state' =>
      rcases hread : host.read h with ⟨reason | _ | line, h'⟩
      · exact .inl ⟨.hostFailure reason, h', fun _ => rfl⟩
      · exact .inl ⟨.endOfInput, h', fun _ => rfl⟩
      · exact .inr ⟨state'.push (.string line), h', ⟨line, rfl⟩, fun _ => rfl⟩

/-- One step that goes on is a step that no host decides, with an answer. -/
theorem Leads.leadsTo {state state' : MachineState} {h h' : σ}
    (hleads : m.Leads host 1 (state, h) (state', h')) : (m.step state).LeadsTo state' := by
  have hone : m.runFrom host 1 state h = .outOfFuel state' h' := hleads
  have hhalt : ∀ stopped, m.step state ≠ .halt stopped := by
    intro stopped hstep
    simp only [runFrom, hstep] at hone
    cases hone
  rcases runFrom_succ_of_not_halt hhalt host h with ⟨error, s, hfails⟩ | ⟨next, s, hnext, hrest⟩
  · rw [hfails 0] at hone
    cases hone
  · rw [hrest 0] at hone
    cases hone
    exact hnext

/-- A run that goes on has a last step. -/
theorem exists_leads_of_run_succ {steps : Nat} {h h' : σ} {state' : MachineState}
    (hrun : m.run host (steps + 1) h = .outOfFuel state' h') :
    ∃ state s, m.run host steps h = .outOfFuel state s ∧
      m.Leads host 1 (state, s) (state', h') := by
  by_cases hgoes : ∃ state s, m.run host steps h = .outOfFuel state s
  · obtain ⟨state, s, hbefore⟩ := hgoes
    have hleads : m.Leads host steps (.start m, h) (state, s) := hbefore
    exact ⟨state, s, hbefore, (hleads.runFrom_add 1).symm.trans hrun⟩
  · -- A run that has ended does not go on under a greater bound.
    have hsame : m.run host (steps + 1) h = m.run host steps h :=
      m.runFrom_add host steps 1 _ h fun state s hbefore => hgoes ⟨state, s, hbefore⟩
    exact absurd ⟨state', h', hsame.symm.trans hrun⟩ hgoes

theorem exists_leadsTo_of_run_succ {steps : Nat} {h h' : σ} {state' : MachineState}
    (hrun : m.run host (steps + 1) h = .outOfFuel state' h') :
    ∃ state s, m.run host steps h = .outOfFuel state s ∧ (m.step state).LeadsTo state' := by
  obtain ⟨state, s, hbefore, hleads⟩ := exists_leads_of_run_succ hrun
  exact ⟨state, s, hbefore, hleads.leadsTo⟩

/-- A run that has ended did so in its last step. -/
theorem exists_leads_of_ended {fuel : Nat} {state : MachineState} {h : σ}
    (hended : ∀ state' h', m.runFrom host fuel state h ≠ .outOfFuel state' h') :
    ∃ steps state' h', steps < fuel ∧ m.Leads host steps (state, h) (state', h') ∧
      m.runFrom host 1 state' h' = m.runFrom host fuel state h := by
  induction fuel generalizing state h with
  | zero => exact absurd rfl (hended state h)
  | succ fuel ih =>
      rw [Nat.add_comm fuel 1] at hended ⊢
      by_cases hgoes : ∃ next k, m.runFrom host 1 state h = .outOfFuel next k
      · obtain ⟨next, k, hone⟩ := hgoes
        have hleads : m.Leads host 1 (state, h) (next, k) := hone
        rw [hleads.runFrom_add fuel] at hended ⊢
        obtain ⟨steps, state', h', hlt, hrest, hlast⟩ := ih hended
        exact ⟨1 + steps, state', h', by omega, hleads.trans hrest, hlast⟩
      · refine ⟨0, state, h, by omega, Leads.refl _, ?_⟩
        rw [m.runFrom_add host 1 fuel state h fun next k hone => hgoes ⟨next, k, hone⟩]

/-- A run that is over after one step stopped where it stood, without a call. -/
theorem runFrom_one_eq_finished {state state' : MachineState} {h h' : σ}
    (hone : m.runFrom host 1 state h = .finished state' h') :
    m.step state = .halt state' ∧ h = h' := by
  by_cases hhalt : ∃ stopped, m.step state = .halt stopped
  · obtain ⟨stopped, hstep⟩ := hhalt
    simp only [runFrom, hstep] at hone
    cases hone
    exact ⟨hstep, rfl⟩
  · rcases runFrom_succ_of_not_halt (fun stopped hstep => hhalt ⟨stopped, hstep⟩) host h with
      ⟨error, s, hfails⟩ | ⟨next, s, -, hrest⟩
    · rw [hfails 0] at hone
      cases hone
    · rw [hrest 0] at hone
      cases hone

/-- A run has one end, whatever bounds show it. -/
theorem run_eq_of_ended {fuel steps : Nat} {h : σ}
    (hfuel : ∀ state h', m.run host fuel h ≠ .outOfFuel state h')
    (hsteps : ∀ state h', m.run host steps h ≠ .outOfFuel state h') :
    m.run host fuel h = m.run host steps h := by
  have hfirst : m.run host (fuel + steps) h = m.run host fuel h :=
    m.runFrom_add host fuel steps _ h hfuel
  have hsecond : m.run host (steps + fuel) h = m.run host steps h :=
    m.runFrom_add host steps fuel _ h hsteps
  rw [← hfirst, ← hsecond, Nat.add_comm]

/-! ## Single steps -/

/-- The step does what the instruction at the position does. -/
theorem step_of_execute {state : MachineState} {instruction : Instruction}
    {transition : Transition} (hcode : m.code[state.position]? = some instruction)
    (hexecute : m.execute instruction state = .ok transition) : m.step state = transition := by
  simp only [step, hcode, hexecute]

theorem step_of_execute_error {state : MachineState} {instruction : Instruction}
    {error : RuntimeError} (hcode : m.code[state.position]? = some instruction)
    (hexecute : m.execute instruction state = .error error) : m.step state = .fault error := by
  simp only [step, hcode, hexecute]

theorem goTo_of_lt {target : UInt32} (htarget : target.toNat < m.code.size)
    (state : MachineState) (stack : List Value) :
    m.goTo target state stack =
      .ok (.next { state with position := target.toNat, stack := stack }) :=
  if_pos htarget

section

variable {position : Nat} {stack : List Value} {locals : Array Value}

theorem step_constant {index : UInt32} {value : Value}
    (hcode : m.code[position]? = some (.constant index))
    (hconstant : m.constants[index.toNat]? = some value) :
    m.step ⟨position, stack, locals⟩ = .next ⟨position + 1, value :: stack, locals⟩ := by
  refine step_of_execute hcode ?_
  simp only [execute, hconstant, MachineState.advance]

theorem step_loadLocal {slot : UInt32} {value : Value}
    (hcode : m.code[position]? = some (.loadLocal slot))
    (hslot : locals[slot.toNat]? = some value) :
    m.step ⟨position, stack, locals⟩ = .next ⟨position + 1, value :: stack, locals⟩ := by
  refine step_of_execute hcode ?_
  simp only [execute, hslot, MachineState.advance]

theorem step_storeLocal {slot : UInt32} {value : Value}
    (hcode : m.code[position]? = some (.storeLocal slot)) (hslot : slot.toNat < locals.size) :
    m.step ⟨position, value :: stack, locals⟩ =
      .next ⟨position + 1, stack, locals.setIfInBounds slot.toNat value⟩ :=
  step_of_execute hcode (if_pos hslot)

theorem step_addInt {first second : Int32} (hcode : m.code[position]? = some .addInt) :
    m.step ⟨position, .int second :: .int first :: stack, locals⟩ =
      .next ⟨position + 1, .int (first + second) :: stack, locals⟩ :=
  step_of_execute hcode rfl

theorem step_intToString {n : Int32} (hcode : m.code[position]? = some .intToString) :
    m.step ⟨position, .int n :: stack, locals⟩ =
      .next ⟨position + 1, .string (Text.Decimal.ofInt32 n) :: stack, locals⟩ :=
  step_of_execute hcode rfl

theorem step_writeLine {line : String}
    (hcode : m.code[position]? = some (.callHost .writeLine)) :
    m.step ⟨position, .string line :: stack, locals⟩ =
      .write line ⟨position + 1, stack, locals⟩ :=
  step_of_execute hcode rfl

theorem step_readLine (hcode : m.code[position]? = some (.callHost .readLine)) :
    m.step ⟨position, stack, locals⟩ = .read ⟨position + 1, stack, locals⟩ :=
  step_of_execute hcode rfl

/-- What reading an integer leads to, by what the text spells. -/
theorem execute_parseInt (m : CodeModule) (position : Nat) (text : String)
    (stack : List Value) (locals : Array Value) :
    m.execute (.callHost .parseInt) ⟨position, .string text :: stack, locals⟩ =
      match parseInteger text with
      | some n => .ok (.next ⟨position + 1, .int n :: stack, locals⟩)
      | none => .error (.invalidInteger text) :=
  rfl

theorem step_parseInt {text : String} {n : Int32}
    (hcode : m.code[position]? = some (.callHost .parseInt))
    (hparse : parseInteger text = some n) :
    m.step ⟨position, .string text :: stack, locals⟩ =
      .next ⟨position + 1, .int n :: stack, locals⟩ := by
  refine step_of_execute hcode ?_
  rw [execute_parseInt, hparse]

theorem step_parseInt_none {text : String}
    (hcode : m.code[position]? = some (.callHost .parseInt))
    (hparse : parseInteger text = none) :
    m.step ⟨position, .string text :: stack, locals⟩ = .fault (.invalidInteger text) := by
  refine step_of_execute_error hcode ?_
  rw [execute_parseInt, hparse]

theorem step_jump {target : UInt32} (hcode : m.code[position]? = some (.jump target))
    (htarget : target.toNat < m.code.size) :
    m.step ⟨position, stack, locals⟩ = .next ⟨target.toNat, stack, locals⟩ :=
  step_of_execute hcode (goTo_of_lt htarget _ _)

theorem step_branchIfLess {target : UInt32} {first second : Int32}
    (hcode : m.code[position]? = some (.branchIfLess target))
    (htarget : target.toNat < m.code.size) :
    m.step ⟨position, .int second :: .int first :: stack, locals⟩ =
      .next ⟨if first < second then target.toNat else position + 1, stack, locals⟩ := by
  refine step_of_execute hcode ?_
  by_cases hless : first < second
  · rw [if_pos hless]
    exact (if_pos hless).trans (goTo_of_lt htarget _ _)
  · rw [if_neg hless]
    exact if_neg hless

theorem step_ret (hcode : m.code[position]? = some .ret) :
    m.step ⟨position, stack, locals⟩ = .halt ⟨position, stack, locals⟩ :=
  step_of_execute hcode rfl

end

end CodeModule

/-! ## Types of the slots -/

/-- Every slot holds a value of the type that the module declares for it. -/
def CodeModule.Types (m : CodeModule) (store : Array Value) : Prop :=
  store.map Value.type = m.locals

@[simp] theorem Value.type_zero (type : ValueType) : (Value.zero type).type = type := by
  cases type <;> rfl

theorem CodeModule.types_zero (m : CodeModule) : m.Types (m.locals.map Value.zero) := by
  simp [Types, Function.comp_def]

namespace CodeModule.Types

variable {m : CodeModule} {store : Array Value}

theorem exists_value (htypes : m.Types store) {slot : Nat} {type : ValueType}
    (hslot : m.locals[slot]? = some type) : ∃ value, store[slot]? = some value ∧ value.type = type := by
  rw [← htypes, Array.getElem?_map] at hslot
  exact Option.map_eq_some_iff.mp hslot

/-- A value of the declared type may be stored. -/
theorem set (htypes : m.Types store) {slot : Nat} {value : Value}
    (hslot : m.locals[slot]? = some value.type) :
    m.Types (store.setIfInBounds slot value) := by
  apply Array.ext_getElem?
  intro i
  rw [Array.getElem?_map, Array.getElem?_setIfInBounds]
  by_cases hi : slot = i
  · -- The new value has the type of the old one.
    subst hi
    obtain ⟨old, hold, -⟩ := htypes.exists_value hslot
    obtain ⟨hlt, -⟩ := Array.getElem?_eq_some_iff.mp hold
    rw [if_pos rfl, if_pos hlt, hslot]
    rfl
  · rw [if_neg hi, ← Array.getElem?_map, htypes]

end CodeModule.Types

/-! ## Records of calls -/

/-- A call of a host, with the answer that was given. -/
inductive Call where
  /-- A line to be written. -/
  | write (line : String) (answer : Except String Unit)
  /-- A request for a line. -/
  | read (answer : Except String (Option String))

/-- The host that answers in the same way and keeps its calls in order. -/
def Host.logged {σ : Type} (host : Host σ) : Host (σ × List Call) where
  write line s :=
    ((host.write line s.1).1, (host.write line s.1).2,
      s.2 ++ [.write line (host.write line s.1).1])
  read s := ((host.read s.1).1, (host.read s.1).2, s.2 ++ [.read (host.read s.1).1])

/-- The states of a host are ordered, and every call moves on to a later state. -/
structure Host.Records {σ : Type} (host : Host σ) (le : σ → σ → Prop) : Prop where
  refl : ∀ h, le h h
  trans : ∀ {h h' h''}, le h h' → le h' h'' → le h h''
  write : ∀ line h, le h (host.write line h).2
  read : ∀ h, le h (host.read h).2

theorem Host.records_logged {σ : Type} (host : Host σ) :
    host.logged.Records fun s s' => s.2 <+: s'.2 where
  refl _ := List.prefix_refl _
  trans := List.IsPrefix.trans
  write _ _ := List.prefix_append _ _
  read _ := List.prefix_append _ _

theorem Script.records_host :
    Script.host.Records fun s s' => s.events.toList <+: s'.events.toList where
  refl _ := List.prefix_refl _
  trans := List.IsPrefix.trans
  write line script := by
    show script.events.toList <+: (script.write line).2.events.toList
    unfold Script.write
    split
    · exact List.prefix_refl _
    · simp
  read script := by
    show script.events.toList <+: script.read.2.events.toList
    unfold Script.read
    split
    · exact List.prefix_refl _
    · simp

namespace CodeModule

section

variable {σ : Type} {host : Host σ} {le : σ → σ → Prop}

/-- A run only adds to the record. -/
theorem le_host_runFrom (hrecords : host.Records le) (m : CodeModule) (fuel : Nat)
    (state : MachineState) (h : σ) : le h (m.runFrom host fuel state h).host := by
  induction fuel generalizing state h with
  | zero => exact hrecords.refl h
  | succ fuel ih =>
      simp only [runFrom]
      cases m.step state with
      | next state' => exact ih state' h
      | halt state' => exact hrecords.refl h
      | fault error => exact hrecords.refl h
      | write line state' =>
          have hcall := hrecords.write line h
          rcases hwrite : host.write line h with ⟨reason | _, h'⟩ <;>
            simp only [hwrite] at hcall ⊢
          · exact hcall
          · exact hrecords.trans hcall (ih state' h')
      | read state' =>
          have hcall := hrecords.read h
          rcases hread : host.read h with ⟨reason | _ | line, h'⟩ <;>
            simp only [hread] at hcall ⊢
          · exact hcall
          · exact hcall
          · exact hrecords.trans hcall (ih _ h')

/-- Under a greater bound a run only adds to the record. -/
theorem le_host_runFrom_add (hrecords : host.Records le) (m : CodeModule) (fuel extra : Nat)
    (state : MachineState) (h : σ) :
    le (m.runFrom host fuel state h).host (m.runFrom host (fuel + extra) state h).host := by
  by_cases hgoes : ∃ state' h', m.runFrom host fuel state h = .outOfFuel state' h'
  · obtain ⟨state', h', hrun⟩ := hgoes
    have hleads : m.Leads host fuel (state, h) (state', h') := hrun
    rw [hleads.runFrom_add extra, hrun]
    exact le_host_runFrom hrecords m extra state' h'
  · rw [m.runFrom_add host fuel extra state h fun state' h' hrun => hgoes ⟨state', h', hrun⟩]
    exact hrecords.refl _

end

variable {σ : Type} {m : CodeModule} {host : Host σ}

theorem prefix_log_run_of_le {fuel steps : Nat} (hle : fuel ≤ steps) (h : σ) :
    (m.run host.logged fuel (h, [])).host.2 <+: (m.run host.logged steps (h, [])).host.2 := by
  obtain ⟨extra, rfl⟩ : ∃ extra, steps = fuel + extra := ⟨steps - fuel, by omega⟩
  exact m.le_host_runFrom_add host.records_logged fuel extra _ (h, [])

/-- The record of a run that has ended holds every call of the run. -/
theorem prefix_log_run_of_ended {fuel steps : Nat} {h : σ}
    (hended : ∀ state s, m.run host.logged steps (h, []) ≠ .outOfFuel state s) :
    (m.run host.logged fuel (h, [])).host.2 <+: (m.run host.logged steps (h, [])).host.2 := by
  by_cases hle : fuel ≤ steps
  · exact prefix_log_run_of_le hle h
  · obtain ⟨extra, rfl⟩ : ∃ extra, fuel = steps + extra := ⟨fuel - steps, by omega⟩
    have hsame : m.run host.logged (steps + extra) (h, []) = m.run host.logged steps (h, []) :=
      m.runFrom_add host.logged steps extra _ (h, []) hended
    exact hsame ▸ List.prefix_refl _

end CodeModule

end SlotLang
