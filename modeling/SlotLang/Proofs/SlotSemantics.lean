import SlotLang.Machine.Script
import SlotLang.Proofs.Interpreter
import SlotLang.Proofs.LoweredCode
import SlotLang.Proofs.MachineSteps

/-!
# Compiled programs do what their trees say

The interpreter is run with one value for each slot, and a name stands for the
slot that the table at the access gives it.  The machine on the compiled module
behaves in exactly the same way: it makes the same calls of the host, ends in
the same way with the same values in its slots, and runs forever if and only if
the interpreter does.

* `Memory.slots` — one value for each slot.
* `Follows` — the machine does what an execution says.
* `Placed.follows` — the code of a statement does what the statement says.
* `Statement.reproduces_runSlots`, `Statement.runSlots_of_ended` — the two
  directions, for whole programs.
-/

namespace SlotLang

/-! ## One value for each slot -/

/-- Variables in slots: a name stands for the slot that the table gives it. -/
def Memory.slots : Memory (Array Value) where
  read table name store := (table.lookup name).bind fun symbol => store[symbol.slot.toNat]?
  write table name value store := (table.lookup name).bind fun symbol =>
    if symbol.slot.toNat < store.size then
      some (store.setIfInBounds symbol.slot.toNat value)
    else
      none

/-- The slots of a program, every one at its zero. -/
def Statement.zeroSlots (program : Statement) : Array Value :=
  ((program.tableAfter []).types.map Value.zero).toArray

/-- The instruction that loads an expression pushes its value. -/
theorem Loads.step {m : CodeModule} {table : SymbolTable} {position : Nat} {value : Expression}
    {type : ValueType} (hload : Loads m table position value type) {store : Array Value}
    (htypes : m.Types store) :
    ∃ v, Memory.slots.value table value store = some v ∧ v.type = type ∧
      ∀ stack, m.step ⟨position, stack, store⟩ = .next ⟨position + 1, v :: stack, store⟩ := by
  cases hload with
  | string text span index hcode hconstant =>
      exact ⟨.string text, rfl, rfl, fun _ => CodeModule.step_constant hcode hconstant⟩
  | integer n span index hcode hconstant =>
      exact ⟨.int n, rfl, rfl, fun _ => CodeModule.step_constant hcode hconstant⟩
  | name name span symbol hlookup hslot hcode =>
      obtain ⟨v, hv, htype⟩ := htypes.exists_value hslot
      refine ⟨v, ?_, htype, fun _ => CodeModule.step_loadLocal hcode hv⟩
      simp [Memory.value, Memory.slots, hlookup, hv]

/-- The instruction that stores into a name writes its slot. -/
theorem Stores.step {m : CodeModule} {table : SymbolTable} {position : Nat} {name : String}
    {value : Value} (hstore : Stores m table position name value.type) {store : Array Value}
    (htypes : m.Types store) :
    ∃ store', Memory.slots.write table name value store = some store' ∧ m.Types store' ∧
      ∀ stack, m.step ⟨position, value :: stack, store⟩ = .next ⟨position + 1, stack, store'⟩ := by
  obtain ⟨symbol, hlookup, -, hslot, hcode⟩ := hstore
  obtain ⟨old, hold, -⟩ := htypes.exists_value hslot
  obtain ⟨hlt, -⟩ := Array.getElem?_eq_some_iff.mp hold
  refine ⟨store.setIfInBounds symbol.slot.toNat value, ?_, htypes.set hslot, fun _ => ?_⟩
  · simp [Memory.slots, hlookup, hlt]
  · exact CodeModule.step_storeLocal hcode hlt

/-- An integer is loaded where one is expected. -/
theorem Loads.step_integer {m : CodeModule} {table : SymbolTable} {position : Nat}
    {value : Expression} (hload : Loads m table position value .int) {store : Array Value}
    (htypes : m.Types store) :
    ∃ n, Memory.slots.value table value store = some (.int n) ∧
      ∀ stack, m.step ⟨position, stack, store⟩ =
        .next ⟨position + 1, .int n :: stack, store⟩ := by
  obtain ⟨v, hvalue, htype, hstep⟩ := hload.step htypes
  cases v with
  | int n => exact ⟨n, hvalue, hstep⟩
  | string text => cases htype

/-! ## The machine follows an execution -/

section

variable {σ : Type} {m : CodeModule} {host : Host σ} {fuel stop : Nat}
  {start : MachineState × σ}

/-- The machine, from the state `start`, does what an execution says: it comes
to the position `stop` with an empty stack, or fails, or makes at least `fuel`
steps where the execution used up its bound. -/
def Follows (m : CodeModule) (host : Host σ) (fuel stop : Nat) (start : MachineState × σ) :
    Execution (Array Value) σ → Prop
  | .done store h =>
      m.Types store ∧ ∃ steps, m.Leads host steps start (⟨stop, [], store⟩, h)
  | .failed error h => ∃ steps, m.runFrom host steps start.1 start.2 = .failed error h
  | .stuck _ => False
  | .outOfFuel h => ∃ steps state, fuel ≤ steps ∧ m.Leads host steps start (state, h)

/-- Steps in front count for the bound. -/
theorem Follows.after {steps : Nat} {middle : MachineState × σ}
    {execution : Execution (Array Value) σ} (hfollows : Follows m host fuel stop middle execution)
    (hleads : m.Leads host steps start middle) :
    Follows m host (steps + fuel) stop start execution := by
  cases execution with
  | done store h =>
      obtain ⟨htypes, more, hmore⟩ := hfollows
      exact ⟨htypes, steps + more, hleads.trans hmore⟩
  | failed error h =>
      obtain ⟨more, hmore⟩ := hfollows
      exact ⟨steps + more, (hleads.runFrom_add more).trans hmore⟩
  | stuck h => exact hfollows
  | outOfFuel h =>
      obtain ⟨more, state, hle, hmore⟩ := hfollows
      exact ⟨steps + more, state, by omega, hleads.trans hmore⟩

theorem Follows.of_le {fuel' : Nat} {execution : Execution (Array Value) σ}
    (hfollows : Follows m host fuel stop start execution) (hle : fuel' ≤ fuel) :
    Follows m host fuel' stop start execution := by
  cases execution with
  | done store h => exact hfollows
  | failed error h => exact hfollows
  | stuck h => exact hfollows
  | outOfFuel h =>
      obtain ⟨steps, state, hsteps, hleads⟩ := hfollows
      exact ⟨steps, state, by omega, hleads⟩

theorem Follows.later {steps : Nat} {middle : MachineState × σ}
    {execution : Execution (Array Value) σ} (hfollows : Follows m host fuel stop middle execution)
    (hleads : m.Leads host steps start middle) : Follows m host fuel stop start execution :=
  (hfollows.after hleads).of_le (Nat.le_add_left fuel steps)

theorem Follows.andThen {middle : Nat} {first : Execution (Array Value) σ}
    {next : Array Value → σ → Execution (Array Value) σ}
    (hfirst : Follows m host fuel middle start first)
    (hnext : ∀ store h, m.Types store →
      Follows m host fuel stop (⟨middle, [], store⟩, h) (next store h)) :
    Follows m host fuel stop start (first.andThen next) := by
  cases first with
  | done store h =>
      obtain ⟨htypes, steps, hleads⟩ := hfirst
      exact (hnext store h htypes).later hleads
  | failed error h => exact hfirst
  | stuck h => exact hfirst
  | outOfFuel h => exact hfirst

/-! ## Simple statements -/

/-- One load and one store carry out an assignment. -/
theorem follows_assign {table : SymbolTable} {position : Nat} {name : String}
    {value : Expression} {type : ValueType} (hload : Loads m table position value type)
    (hstore : Stores m table (position + 1) name type) {store : Array Value}
    (htypes : m.Types store) (h : σ) :
    Follows m host fuel (position + 2) (⟨position, [], store⟩, h)
      (.access h (Memory.slots.assign table name value store)) := by
  obtain ⟨v, hvalue, rfl, hpush⟩ := hload.step htypes
  obtain ⟨store', hwrite, htypes', hpop⟩ := hstore.step htypes
  have hassign : Memory.slots.assign table name value store = some store' := by
    rw [Memory.assign, hvalue]
    exact hwrite
  rw [hassign]
  exact ⟨htypes', 2, (CodeModule.Leads.of_next (hpush []) h).trans (.of_next (hpop []) h)⟩

/-- A line on the stack is written. -/
theorem follows_write {position : Nat} {line : String}
    (hcall : m.code[position]? = some (.callHost .writeLine)) {store : Array Value}
    (htypes : m.Types store) (h : σ) :
    Follows m host fuel (position + 1) (⟨position, [.string line], store⟩, h)
      (.afterWrite store (host.write line h)) := by
  have hstep : m.step ⟨position, [.string line], store⟩ =
      .write line ⟨position + 1, [], store⟩ := CodeModule.step_writeLine hcall
  rcases hwrite : host.write line h with ⟨reason | _, h'⟩
  · refine ⟨1, ?_⟩
    simp only [CodeModule.runFrom, hstep, hwrite]
  · exact ⟨htypes, 1, .of_write hstep hwrite⟩

/-- A line is read, and the integer that it spells is stored. -/
theorem follows_read {table : SymbolTable} {position : Nat} {name : String}
    (hread : m.code[position]? = some (.callHost .readLine))
    (hparse : m.code[position + 1]? = some (.callHost .parseInt))
    (hstore : Stores m table (position + 2) name .int) {store : Array Value}
    (htypes : m.Types store) (h : σ) :
    Follows m host fuel (position + 3) (⟨position, [], store⟩, h)
      (.afterRead (fun n => Memory.slots.write table name (.int n) store) (host.read h)) := by
  have hstep : m.step ⟨position, [], store⟩ = .read ⟨position + 1, [], store⟩ :=
    CodeModule.step_readLine hread
  rcases hanswer : host.read h with ⟨reason | _ | line, h'⟩
  · refine ⟨1, ?_⟩
    simp only [CodeModule.runFrom, hstep, hanswer]
  · refine ⟨1, ?_⟩
    simp only [CodeModule.runFrom, hstep, hanswer]
  · have hline : m.Leads host 1 (⟨position, [], store⟩, h)
        (⟨position + 1, [.string line], store⟩, h') := .of_read hstep hanswer
    cases hn : parseInteger line with
    | none =>
        have hfault : m.step ⟨position + 1, [.string line], store⟩ =
            .fault (.invalidInteger line) := CodeModule.step_parseInt_none hparse hn
        simp only [Execution.afterRead, hn]
        refine ⟨1 + 1, (hline.runFrom_add 1).trans ?_⟩
        simp only [CodeModule.runFrom, hfault]
    | some n =>
        have hinteger : Stores m table (position + 2) name (Value.int n).type := hstore
        obtain ⟨store', hwrite, htypes', hpop⟩ := hinteger.step htypes
        simp only [Execution.afterRead, hn, hwrite]
        refine ⟨htypes', 1 + (1 + 1), hline.trans ?_⟩
        exact (CodeModule.Leads.of_next (CodeModule.step_parseInt hparse hn) h').trans
          (.of_next (hpop []) h')

/-! ## Loops -/

/-- The increment of a loop adds one to its index. -/
theorem leads_increment {table : SymbolTable} {position : Nat} {index : String} {span : Span}
    (hindex : Loads m table position (.name index span) .int)
    (hone : Loads m table (position + 1) (.integer 1 span) .int)
    (hadd : m.code[position + 2]? = some .addInt)
    (hnext : Stores m table (position + 3) index .int) {store : Array Value}
    (htypes : m.Types store) (h : σ) :
    ∃ store', Memory.slots.increment table index store = some store' ∧ m.Types store' ∧
      m.Leads host 4 (⟨position, [], store⟩, h) (⟨position + 4, [], store'⟩, h) := by
  obtain ⟨n, hn, hpushIndex⟩ := hindex.step_integer htypes
  obtain ⟨one, hvalue, hpushOne⟩ := hone.step_integer htypes
  cases hvalue
  have hinteger : Stores m table (position + 3) index (Value.int (n + 1)).type := hnext
  obtain ⟨store', hwrite, htypes', hpop⟩ := hinteger.step htypes
  refine ⟨store', ?_, htypes', ?_⟩
  · have hread : Memory.slots.read table index store = some (.int n) := hn
    rw [Memory.increment, Memory.readInteger, hread]
    exact hwrite
  · have hloads : m.Leads host 2 (⟨position, [], store⟩, h)
        (⟨position + 2, [.int 1, .int n], store⟩, h) :=
      (CodeModule.Leads.of_next (hpushIndex []) h).trans (.of_next (hpushOne [.int n]) h)
    have hstores : m.Leads host 2 (⟨position + 2, [.int 1, .int n], store⟩, h)
        (⟨position + 4, [], store'⟩, h) :=
      (CodeModule.Leads.of_next (CodeModule.step_addInt hadd) h).trans (.of_next (hpop []) h)
    exact hloads.trans hstores

/-- The test of a loop goes back to the body as long as the index is less than
the bound. -/
theorem leads_test {table : SymbolTable} {position : Nat} {index : String} {upper : Expression}
    {span : Span} {back : UInt32} (hindex : Loads m table position (.name index span) .int)
    (hupper : Loads m table (position + 1) upper .int)
    (hbranch : m.code[position + 2]? = some (.branchIfLess back))
    (hback : back.toNat < m.code.size) {store : Array Value} (htypes : m.Types store) (h : σ) :
    ∃ less, Memory.slots.test table index upper store = some less ∧
      m.Leads host 3 (⟨position, [], store⟩, h)
        (⟨if less then back.toNat else position + 3, [], store⟩, h) := by
  obtain ⟨n, hn, hpushIndex⟩ := hindex.step_integer htypes
  obtain ⟨bound, hbound, hpushUpper⟩ := hupper.step_integer htypes
  refine ⟨n < bound, ?_, ?_⟩
  · have hread : Memory.slots.read table index store = some (.int n) := hn
    rw [Memory.test, Memory.readInteger, Memory.integer, hread, hbound]
  · have hloads : m.Leads host 2 (⟨position, [], store⟩, h)
        (⟨position + 2, [.int bound, .int n], store⟩, h) :=
      (CodeModule.Leads.of_next (hpushIndex []) h).trans (.of_next (hpushUpper [.int n]) h)
    have hcompare : m.Leads host 1 (⟨position + 2, [.int bound, .int n], store⟩, h)
        (⟨if n < bound then back.toNat else position + 3, [], store⟩, h) :=
      .of_next (CodeModule.step_branchIfLess hbranch hback) h
    simpa using hloads.trans hcompare

/-- The rounds of a loop, given its test and the code of one round. -/
theorem follows_rounds {test : Array Value → Option Bool}
    {round : Array Value → σ → Execution (Array Value) σ} {body tested : Nat}
    (htest : ∀ store h, m.Types store → ∃ less, test store = some less ∧
      m.Leads host 3 (⟨tested, [], store⟩, h) (⟨if less then body else stop, [], store⟩, h))
    (hround : ∀ store h, m.Types store →
      Follows m host fuel tested (⟨body, [], store⟩, h) (round store h))
    {rounds : Nat} (hrounds : rounds ≤ fuel) {store : Array Value} (htypes : m.Types store)
    (h : σ) :
    Follows m host rounds stop (⟨tested, [], store⟩, h)
      (Execution.rounds test round rounds store h) := by
  induction rounds generalizing store h with
  | zero =>
      obtain ⟨less, hless, hleads⟩ := htest store h htypes
      unfold Execution.rounds
      cases less with
      | false =>
          simp only [hless]
          exact ⟨htypes, 3, hleads⟩
      | true =>
          simp only [hless]
          exact ⟨0, _, Nat.le_refl 0, .refl _⟩
  | succ rounds ih =>
      obtain ⟨less, hless, hleads⟩ := htest store h htypes
      unfold Execution.rounds
      cases less with
      | false =>
          simp only [hless]
          exact ⟨htypes, 3, hleads⟩
      | true =>
          simp only [hless]
          -- A round costs the steps of its test, so the steps keep up with the rounds.
          have hbody : Follows m host rounds tested (⟨body, [], store⟩, h) (round store h) :=
            (hround store h htypes).of_le (by omega)
          have hrest := hbody.andThen fun store h htypes => ih (by omega) htypes h
          exact (hrest.after hleads).of_le (by omega)

/-- The code of a statement does what the statement says. -/
theorem Placed.follows {statement : Statement} {table : SymbolTable} {position stop : Nat}
    (hplaced : Placed m statement table position stop) {store : Array Value}
    (htypes : m.Types store) (h : σ) :
    Follows m host fuel stop (⟨position, [], store⟩, h)
      (statement.exec Memory.slots host fuel table store h) := by
  induction hplaced generalizing store h with
  | sequence hfirst hsecond ihfirst ihsecond =>
      exact (ihfirst htypes h).andThen fun store h htypes => ihsecond htypes h
  | declare hload hstore => exact follows_assign hload hstore htypes h
  | assign hload hstore => exact follows_assign hload hstore htypes h
  | printString hload hcall =>
      obtain ⟨v, hvalue, htype, hpush⟩ := hload.step htypes
      cases v with
      | int n => cases htype
      | string text =>
          simp only [Statement.exec, hvalue]
          exact (follows_write hcall htypes h).later (.of_next (hpush []) h)
  | printInteger hload hconvert hcall =>
      obtain ⟨n, hvalue, hpush⟩ := hload.step_integer htypes
      simp only [Statement.exec, hvalue]
      refine Follows.later ?_ (.of_next (hpush []) h)
      exact (follows_write hcall htypes h).later
        (.of_next (CodeModule.step_intToString hconvert) h)
  | readInt hread hparse hstore => exact follows_read hread hparse hstore htypes h
  | @forLoop index lower upper body span table position middle type entry back hlower hinit
      hjump hentry hbody hindex hone hadd hnext htest hupper hbranch hback ih =>
      have hmiddle := hbody.lt
      have hsize := htest.lt_size
      -- A round is the body and then the increment.
      have hround : ∀ store h, m.Types store →
          Follows m host fuel (middle + 4) (⟨position + 3, [], store⟩, h)
            ((body.exec Memory.slots host fuel (table.declareIndex index) store h).andThen
              fun store h => .access h
                (Memory.slots.increment (body.tableAfter (table.declareIndex index)) index store)) := by
        intro store h htypes
        refine (ih htypes h).andThen fun store h htypes => ?_
        obtain ⟨store', hincrement, htypes', hleads⟩ :=
          leads_increment hindex hone hadd hnext htypes h
        rw [hincrement]
        exact ⟨htypes', 4, hleads⟩
      refine (follows_assign hlower hinit htypes h).andThen fun store h htypes => ?_
      have henter : m.Leads host 1 (⟨position + 2, [], store⟩, h)
          (⟨middle + 4, [], store⟩, h) := by
        rw [← hentry]
        exact .of_next (CodeModule.step_jump hjump (by omega)) h
      refine (follows_rounds ?_ hround (Nat.le_refl fuel) htypes h).later henter
      intro store h htypes
      rw [← hback]
      exact leads_test htest hupper hbranch (by omega) htypes h

end

/-! ## Whole programs -/

/-- The tree of a program, run on its slots. -/
def Statement.runSlots {σ : Type} (program : Statement) (host : Host σ) (fuel : Nat) (h : σ) :
    Execution (Array Value) σ :=
  program.exec Memory.slots host fuel [] program.zeroSlots h

section

variable {σ : Type} {program : Statement} {name : String} {m : CodeModule}

/-- How the run of a module goes, given how the run of the tree goes. -/
def CodeModule.Reproduces (m : CodeModule) (host : Host σ) (fuel : Nat) (h : σ) :
    Execution (Array Value) σ → Prop
  | .done store h' =>
      ∃ steps state, m.run host steps h = .finished state h' ∧ state.locals = store
  | .failed error h' => ∃ steps, m.run host steps h = .failed error h'
  | .stuck _ => False
  | .outOfFuel h' => ∃ steps state, fuel ≤ steps ∧ m.run host steps h = .outOfFuel state h'

theorem Statement.reproduces_runSlots (hcompile : program.compile name = .ok m)
    (hsize : m.code.size ≤ UInt32.size) (host : Host σ) (fuel : Nat) (h : σ) :
    m.Reproduces host fuel h (program.runSlots host fuel h) := by
  obtain ⟨stop, hplaced, hret, hlocals, -⟩ := program.placed_of_compile hcompile hsize
  have hzero : m.locals.map Value.zero = program.zeroSlots := by
    rw [zeroSlots, ← hlocals]
    exact Array.toList_inj.mp (by simp)
  have htypes : m.Types program.zeroSlots := hzero ▸ m.types_zero
  have hstart : MachineState.start m = ⟨0, [], program.zeroSlots⟩ := by
    rw [MachineState.start, hzero]
  have hfollows : Follows m host fuel stop (MachineState.start m, h)
      (program.runSlots host fuel h) := by
    rw [hstart]
    exact hplaced.follows htypes h
  cases hexec : program.runSlots host fuel h with
  | done store h' =>
      rw [hexec] at hfollows
      obtain ⟨-, steps, hleads⟩ := hfollows
      -- One more step carries out the final return.
      refine ⟨steps + 1, ⟨stop, [], store⟩, (hleads.runFrom_add 1).trans ?_, rfl⟩
      simp only [CodeModule.runFrom, CodeModule.step_ret hret]
  | failed error h' => rw [hexec] at hfollows; exact hfollows
  | stuck h' => rw [hexec] at hfollows; exact hfollows
  | outOfFuel h' => rw [hexec] at hfollows; exact hfollows

/-- A run that has ended is met by the tree with one more round. -/
theorem Statement.runSlots_of_ended (hcompile : program.compile name = .ok m)
    (hsize : m.code.size ≤ UInt32.size) (host : Host σ) (fuel : Nat) (h : σ)
    (hended : ∀ state h', m.run host fuel h ≠ .outOfFuel state h') :
    (∃ state h', m.run host fuel h = .finished state h' ∧
        program.runSlots host (fuel + 1) h = .done state.locals h') ∨
      ∃ error h', m.run host fuel h = .failed error h' ∧
        program.runSlots host (fuel + 1) h = .failed error h' := by
  have hreproduces := program.reproduces_runSlots hcompile hsize host (fuel + 1) h
  cases hexec : program.runSlots host (fuel + 1) h with
  | done store h' =>
      rw [hexec] at hreproduces
      obtain ⟨steps, state, hrun, rfl⟩ := hreproduces
      have hother : ∀ state h', m.run host steps h ≠ .outOfFuel state h' := by simp [hrun]
      rw [CodeModule.run_eq_of_ended hended hother]
      exact .inl ⟨state, h', hrun, rfl⟩
  | failed error h' =>
      rw [hexec] at hreproduces
      obtain ⟨steps, hrun⟩ := hreproduces
      have hother : ∀ state h', m.run host steps h ≠ .outOfFuel state h' := by simp [hrun]
      rw [CodeModule.run_eq_of_ended hended hother]
      exact .inr ⟨error, h', hrun, rfl⟩
  | stuck h' => rw [hexec] at hreproduces; exact hreproduces.elim
  | outOfFuel h' =>
      rw [hexec] at hreproduces
      obtain ⟨steps, state, hle, hrun⟩ := hreproduces
      -- The machine would go on after more steps than it took to its end.
      obtain ⟨extra, rfl⟩ : ∃ extra, steps = fuel + extra := ⟨steps - fuel, by omega⟩
      have hsame : m.run host (fuel + extra) h = m.run host fuel h :=
        m.runFrom_add host fuel extra _ h hended
      rw [hsame] at hrun
      exact absurd hrun (hended state h')

/-- Wherever the tree stops, the machine comes by with the same host, at its end
or after as many steps. -/
theorem CodeModule.Reproduces.exists_steps {host : Host σ} {fuel : Nat} {h : σ}
    {execution : Execution (Array Value) σ} (hreproduces : m.Reproduces host fuel h execution) :
    ∃ steps, (m.run host steps h).host = execution.host ∧
      (fuel ≤ steps ∨ ∀ state h', m.run host steps h ≠ .outOfFuel state h') := by
  cases execution with
  | done store h' =>
      obtain ⟨steps, state, hrun, -⟩ := hreproduces
      exact ⟨steps, by rw [hrun]; rfl, .inr (by simp [hrun])⟩
  | failed error h' =>
      obtain ⟨steps, hrun⟩ := hreproduces
      exact ⟨steps, by rw [hrun]; rfl, .inr (by simp [hrun])⟩
  | stuck h' => exact hreproduces.elim
  | outOfFuel h' =>
      obtain ⟨steps, state, hle, hrun⟩ := hreproduces
      exact ⟨steps, by rw [hrun]; rfl, .inl hle⟩

/-- The calls that one of the two runs makes up to some bound are those that the
other makes up to some bound. -/
theorem Statement.prefix_calls_iff (hcompile : program.compile name = .ok m)
    (hsize : m.code.size ≤ UInt32.size) (host : Host σ) (h : σ) (calls : List Call) :
    (∃ fuel, calls <+: (program.runSlots host.logged fuel (h, [])).host.2) ↔
      ∃ fuel, calls <+: (m.run host.logged fuel (h, [])).host.2 := by
  have hreproduces := program.reproduces_runSlots hcompile hsize host.logged
  constructor
  · rintro ⟨fuel, hcalls⟩
    obtain ⟨steps, hhost, -⟩ := (hreproduces fuel (h, [])).exists_steps
    rw [← hhost] at hcalls
    exact ⟨steps, hcalls⟩
  · rintro ⟨fuel, hcalls⟩
    -- The tree with the same bound has made all the calls of the machine.
    refine ⟨fuel, hcalls.trans ?_⟩
    obtain ⟨steps, hhost, hle | hended⟩ := (hreproduces fuel (h, [])).exists_steps
    · rw [← hhost]
      exact CodeModule.prefix_log_run_of_le hle h
    · rw [← hhost]
      exact CodeModule.prefix_log_run_of_ended hended

/-- The tree and the machine come to their ends together. -/
theorem Statement.exists_done_iff (hcompile : program.compile name = .ok m)
    (hsize : m.code.size ≤ UInt32.size) (host : Host σ) (h : σ) (store : Array Value) (s : σ) :
    (∃ fuel, program.runSlots host fuel h = .done store s) ↔
      ∃ fuel state, m.run host fuel h = .finished state s ∧ state.locals = store := by
  constructor
  · rintro ⟨fuel, hexec⟩
    have hreproduces := program.reproduces_runSlots hcompile hsize host fuel h
    rw [hexec] at hreproduces
    exact hreproduces
  · rintro ⟨fuel, state, hrun, rfl⟩
    rcases program.runSlots_of_ended hcompile hsize host fuel h (by simp [hrun]) with
      ⟨state', s', hrun', hexec⟩ | ⟨error, s', hrun', -⟩
    · rw [hrun] at hrun'
      cases hrun'
      exact ⟨fuel + 1, hexec⟩
    · rw [hrun] at hrun'
      cases hrun'

/-- The tree and the machine fail together. -/
theorem Statement.exists_failed_iff (hcompile : program.compile name = .ok m)
    (hsize : m.code.size ≤ UInt32.size) (host : Host σ) (h : σ) (error : RuntimeError) (s : σ) :
    (∃ fuel, program.runSlots host fuel h = .failed error s) ↔
      ∃ fuel, m.run host fuel h = .failed error s := by
  constructor
  · rintro ⟨fuel, hexec⟩
    have hreproduces := program.reproduces_runSlots hcompile hsize host fuel h
    rw [hexec] at hreproduces
    exact hreproduces
  · rintro ⟨fuel, hrun⟩
    rcases program.runSlots_of_ended hcompile hsize host fuel h (by simp [hrun]) with
      ⟨state', s', hrun', -⟩ | ⟨error', s', hrun', hexec⟩
    · rw [hrun] at hrun'
      cases hrun'
    · rw [hrun] at hrun'
      cases hrun'
      exact ⟨fuel + 1, hexec⟩

/-- The tree and the machine run forever together. -/
theorem Statement.forall_outOfFuel_iff (hcompile : program.compile name = .ok m)
    (hsize : m.code.size ≤ UInt32.size) (host : Host σ) (h : σ) :
    (∀ fuel, ∃ s, program.runSlots host fuel h = .outOfFuel s) ↔
      ∀ fuel, ∃ state s, m.run host fuel h = .outOfFuel state s := by
  constructor
  · intro hexec fuel
    -- A machine that has ended would have brought the tree to its end as well.
    refine Classical.byContradiction fun hnone => ?_
    have hended : ∀ state s, m.run host fuel h ≠ .outOfFuel state s :=
      fun state s hrun => hnone ⟨state, s, hrun⟩
    obtain ⟨s, hs⟩ := hexec (fuel + 1)
    rcases program.runSlots_of_ended hcompile hsize host fuel h hended with
      ⟨_, _, -, hdone⟩ | ⟨_, _, -, hfailed⟩
    · rw [hs] at hdone
      cases hdone
    · rw [hs] at hfailed
      cases hfailed
  · intro hrun fuel
    have hreproduces := program.reproduces_runSlots hcompile hsize host fuel h
    cases hexec : program.runSlots host fuel h with
    | done store s =>
        rw [hexec] at hreproduces
        obtain ⟨steps, state, hfinished, -⟩ := hreproduces
        obtain ⟨state', s', hother⟩ := hrun steps
        rw [hfinished] at hother
        cases hother
    | failed error s =>
        rw [hexec] at hreproduces
        obtain ⟨steps, hfailed⟩ := hreproduces
        obtain ⟨state', s', hother⟩ := hrun steps
        rw [hfailed] at hother
        cases hother
    | stuck s => rw [hexec] at hreproduces; exact hreproduces.elim
    | outOfFuel s => exact ⟨s, rfl⟩

/-- The machine on a compiled program and the tree of the program on its slots
behave in the same way on every host.  One comes to its end if and only if the
other does, with the same host and the same values in the slots; one fails if
and only if the other does, with the same error; one runs forever if and only
if the other does; and the calls of the host are the same, in the same order
and with the same lines, up to the end or without end. -/
theorem Statement.run_iff_exec_slots (hcompile : program.compile name = .ok m)
    (hsize : m.code.size ≤ UInt32.size) (host : Host σ) (h : σ) :
    (∀ store s,
      (∃ fuel, program.runSlots host fuel h = .done store s) ↔
        ∃ fuel state, m.run host fuel h = .finished state s ∧
          state.locals = store) ∧
    (∀ error s,
      (∃ fuel, program.runSlots host fuel h = .failed error s) ↔
        ∃ fuel, m.run host fuel h = .failed error s) ∧
    ((∀ fuel, ∃ s, program.runSlots host fuel h = .outOfFuel s) ↔
      ∀ fuel, ∃ state s, m.run host fuel h = .outOfFuel state s) ∧
    ∀ calls,
      (∃ fuel, calls <+: (program.runSlots host.logged fuel (h, [])).host.2) ↔
        ∃ fuel, calls <+: (m.run host.logged fuel (h, [])).host.2 := by
  refine ⟨?_, ?_, ?_, ?_⟩
  · intro store s
    exact program.exists_done_iff hcompile hsize host h store s
  · intro error s
    exact program.exists_failed_iff hcompile hsize host h error s
  · exact program.forall_outOfFuel_iff hcompile hsize host h
  · intro calls
    exact program.prefix_calls_iff hcompile hsize host h calls

/-- A loop that prints a variable and declares it again, in two rounds, and a
last print after its end. -/
def Statement.shadowing : Statement :=
  .sequence (.declare "x" (.integer 1 ⟨8, 9⟩) ⟨0, 9⟩)
    (.sequence
      (.forLoop "i" (.integer 0 ⟨19, 20⟩) (.integer 2 ⟨24, 25⟩)
        (.sequence (.print (.name "x" ⟨35, 36⟩) ⟨29, 36⟩)
          (.declare "x" (.integer 5 ⟨46, 47⟩) ⟨38, 47⟩) ⟨29, 47⟩) ⟨11, 51⟩)
      (.print (.name "x" ⟨59, 60⟩) ⟨53, 60⟩) ⟨11, 60⟩) ⟨0, 60⟩

/-- The module of that program: the declaration in the loop has a slot of its own,
which the print in front of it does not read. -/
def CodeModule.shadowing : CodeModule where
  name := "shadowing"
  entry := "main"
  locals := #[.int, .int, .int]
  constants := #[.int 1, .int 0, .int 5, .int 2]
  code := #[.constant 0, .storeLocal 0, .constant 1, .storeLocal 1, .jump 14, .loadLocal 0,
    .intToString, .callHost .writeLine, .constant 2, .storeLocal 2, .loadLocal 1, .constant 0,
    .addInt, .storeLocal 1, .loadLocal 1, .constant 3, .branchIfLess 5, .loadLocal 2,
    .intToString, .callHost .writeLine, .ret]

/-- The tree of that program writes three lines, and so does its module. -/
theorem Statement.shadowing_run_iff_exec_slots :
    Statement.shadowing.compile "shadowing" = .ok CodeModule.shadowing ∧
      CodeModule.shadowing.code.size ≤ UInt32.size ∧
      ∃ fuel state, CodeModule.shadowing.run Script.host fuel (Script.start [] none none) =
          .finished state
            { Script.start [] none none with
              events := #[.wrote "1", .wrote "1", .wrote "5"]
              writes := 3 } ∧
        state.locals = #[.int 1, .int 2, .int 5] := by
  have hcompile : Statement.shadowing.compile "shadowing" = .ok CodeModule.shadowing :=
    eq_ok_of_toOption (by decide +kernel)
  have hsize : CodeModule.shadowing.code.size ≤ UInt32.size := by decide
  have hagree := Statement.run_iff_exec_slots hcompile hsize Script.host
    (Script.start [] none none)
  exact ⟨hcompile, hsize, (hagree.1 _ _).mp ⟨2, rfl⟩⟩

end

end SlotLang
