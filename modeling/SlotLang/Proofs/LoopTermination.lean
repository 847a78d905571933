import SlotLang.Proofs.SlotSemantics

/-!
# Loops that leave their index alone come to an end

A loop tests its index against a bound that the body may change in any way, so the
bound says nothing about the number of rounds.  What does is the index itself, if
the body does not touch it.  Each round adds one to it, and each round comes after a
test that found it less than some integer: the index is never the greatest integer
when it is counted up, the sum does not wrap around, and there is room for finitely
many rounds.

The body of a loop keeps the index since two names never share a slot.

* `Statement.Binds`, `Statement.LeavesIndices` — the condition.
* `CodeModule.Settles` — all runs from a state come to an exit or fail, whatever the
  host answers, and no addition on the way wraps around.
* `Statement.Keeps` — what a statement leaves as it was.
* `Placed.settles` — the code of a statement settles at its end.
* `Statement.run_terminates` — the same for the runs of compiled programs.
-/

namespace SlotLang

/-! ## The condition -/

/-- Somewhere in the statement the name is declared, assigned to, read or counted. -/
def Statement.Binds (target : String) : Statement → Prop
  | sequence first second _ => first.Binds target ∨ second.Binds target
  | declare name _ _ => name = target
  | assign name _ _ => name = target
  | print _ _ => False
  | readInt name _ => name = target
  | forLoop index _ _ body _ => index = target ∨ body.Binds target

/-- No loop has its own index bound in its body. -/
def Statement.LeavesIndices : Statement → Prop
  | sequence first second _ => first.LeavesIndices ∧ second.LeavesIndices
  | declare _ _ _ => True
  | assign _ _ _ => True
  | print _ _ => True
  | readInt _ _ => True
  | forLoop index _ _ body _ => ¬ body.Binds index ∧ body.LeavesIndices

instance Statement.decidableBinds (target : String) :
    (statement : Statement) → Decidable (statement.Binds target)
  | sequence first second _ =>
      have := decidableBinds target first
      have := decidableBinds target second
      inferInstanceAs (Decidable (first.Binds target ∨ second.Binds target))
  | declare name _ _ => inferInstanceAs (Decidable (name = target))
  | assign name _ _ => inferInstanceAs (Decidable (name = target))
  | print _ _ => inferInstanceAs (Decidable False)
  | readInt name _ => inferInstanceAs (Decidable (name = target))
  | forLoop index _ _ body _ =>
      have := decidableBinds target body
      inferInstanceAs (Decidable (index = target ∨ body.Binds target))

instance Statement.decidableLeavesIndices :
    (statement : Statement) → Decidable statement.LeavesIndices
  | sequence first second _ =>
      have := decidableLeavesIndices first
      have := decidableLeavesIndices second
      inferInstanceAs (Decidable (first.LeavesIndices ∧ second.LeavesIndices))
  | declare _ _ _ => inferInstanceAs (Decidable True)
  | assign _ _ _ => inferInstanceAs (Decidable True)
  | print _ _ => inferInstanceAs (Decidable True)
  | readInt _ _ => inferInstanceAs (Decidable True)
  | forLoop index _ _ body _ =>
      have := decidableLeavesIndices body
      inferInstanceAs (Decidable (¬ body.Binds index ∧ body.LeavesIndices))

/-- A name that a statement does not bind keeps its slot. -/
theorem Statement.lookup_tableAfter_of_not_binds {statement : Statement} {target : String}
    (hbinds : ¬ statement.Binds target) (table : SymbolTable) :
    (statement.tableAfter table).lookup target = table.lookup target := by
  induction statement generalizing table with
  | sequence first second span ihfirst ihsecond =>
      obtain ⟨hfirst, hsecond⟩ := not_or.mp hbinds
      exact (ihsecond hsecond _).trans (ihfirst hfirst table)
  | declare name value span => exact table.lookup_declareValue_of_ne value (Ne.symm hbinds)
  | assign name value span => rfl
  | print value span => rfl
  | readInt name span => rfl
  | forLoop index lower upper body span ih =>
      obtain ⟨hindex, hbody⟩ := not_or.mp hbinds
      exact (ih hbody _).trans (table.lookup_declareIndex_of_ne (Ne.symm hindex))

/-! ## Runs that settle -/

namespace CodeModule

/-- If the next instruction is an addition, it adds one to an integer that is not the
greatest. -/
def AddsInRange (m : CodeModule) (state : MachineState) : Prop :=
  m.code[state.position]? = some .addInt →
    ∃ n rest, state.stack = .int 1 :: .int n :: rest ∧ n < Int32.maxValue

/-- Every run from a state comes to one of `exits` or fails, after finitely many steps and
whatever the host answers, and every addition on the way is in range. -/
inductive Settles (m : CodeModule) (exits : MachineState → Prop) : MachineState → Prop
  | exit {state : MachineState} (hexit : exits state) : Settles m exits state
  | step {state : MachineState} (hadd : m.AddsInRange state)
      (hhalt : ∀ state', m.step state ≠ .halt state')
      (hnext : ∀ state', (m.step state).LeadsTo state' → Settles m exits state') :
      Settles m exits state

variable {σ : Type} {m : CodeModule} {exits : MachineState → Prop} {state : MachineState}

/-- Runs that settle at states from which they settle again. -/
theorem Settles.trans {exits' : MachineState → Prop} (hsettles : m.Settles exits state)
    (hexits : ∀ state', exits state' → m.Settles exits' state') : m.Settles exits' state := by
  induction hsettles with
  | exit hexit => exact hexits _ hexit
  | step hadd hhalt hnext ih => exact .step hadd hhalt ih

/-- One step inside the machine, before the rest of the run. -/
theorem Settles.of_next {state' : MachineState} (hadd : m.AddsInRange state)
    (hstep : m.step state = .next state') (hrest : m.Settles exits state') :
    m.Settles exits state := by
  refine .step hadd ?_ ?_
  · rw [hstep]
    nofun
  · rw [hstep]
    rintro _ rfl
    exact hrest

theorem addsInRange_of_ne {instruction : Instruction}
    (hcode : m.code[state.position]? = some instruction) (hne : instruction ≠ .addInt) :
    m.AddsInRange state := by
  intro hadd
  rw [hcode, Option.some.injEq] at hadd
  exact absurd hadd hne

/-- The machine stands at a return. -/
def AtReturn (m : CodeModule) (state : MachineState) : Prop :=
  m.code[state.position]? = some .ret

/-- A run that settles at a return comes to its end there, or fails. -/
theorem Settles.exists_end (hsettles : m.Settles m.AtReturn state) (host : Host σ) (h : σ) :
    ∃ fuel, (∃ state' h', m.runFrom host fuel state h = .finished state' h' ∧
        m.code[state'.position]? = some .ret) ∨
      ∃ error h', m.runFrom host fuel state h = .failed error h' := by
  induction hsettles generalizing h with
  | exit hexit =>
      refine ⟨1, .inl ⟨_, h, ?_, hexit⟩⟩
      simp only [runFrom, step_ret hexit]
  | step hadd hhalt hnext ih =>
      rcases runFrom_succ_of_not_halt hhalt host h with ⟨error, h', hfails⟩ |
        ⟨state', h', hleads, hgoes⟩
      · exact ⟨1, .inr ⟨error, h', hfails 0⟩⟩
      · obtain ⟨fuel, hend⟩ := ih state' hleads h'
        rw [← hgoes fuel] at hend
        exact ⟨fuel + 1, hend⟩

/-- Every addition of a run that settles at a return is in range. -/
theorem Settles.addsInRange (hsettles : m.Settles m.AtReturn state) {host : Host σ} {h h' : σ}
    {fuel : Nat} {state' : MachineState}
    (hrun : m.runFrom host fuel state h = .outOfFuel state' h') : m.AddsInRange state' := by
  induction hsettles generalizing h fuel with
  | exit hexit =>
      cases fuel with
      | zero =>
          cases hrun
          exact addsInRange_of_ne hexit nofun
      | succ fuel =>
          simp only [runFrom, step_ret hexit] at hrun
          cases hrun
  | step hadd hhalt hnext ih =>
      cases fuel with
      | zero =>
          cases hrun
          exact hadd
      | succ fuel =>
          rcases runFrom_succ_of_not_halt hhalt host h with ⟨error, h'', hfails⟩ |
            ⟨state'', h'', hleads, hgoes⟩
          · rw [hfails fuel] at hrun
            cases hrun
          · rw [hgoes fuel] at hrun
            exact ih state'' hleads hrun

end CodeModule

/-! ## Names and their slots -/

/-- A write to a name is read back under it, and under no other name. -/
theorem Memory.read_slots_of_write {table : SymbolTable} (hnumbered : table.Numbered)
    (hlength : table.length ≤ UInt32.size) {name : String} {value : Value}
    {store store' : Array Value} (hwrite : slots.write table name value store = some store') :
    slots.read table name store' = some value ∧
      ∀ other, other ≠ name → slots.read table other store' = slots.read table other store := by
  simp only [slots, Option.bind_eq_some_iff] at hwrite ⊢
  obtain ⟨symbol, hlookup, hwrite⟩ := hwrite
  split at hwrite
  next hlt =>
      cases hwrite
      refine ⟨⟨symbol, hlookup, by simp [hlt]⟩, ?_⟩
      intro other hne
      cases hother : table.lookup other with
      | none => rfl
      | some symbol' =>
          -- Two names have two entries of the table, and so two slots.
          have hslot : symbol.slot.toNat ≠ symbol'.slot.toNat := by
            intro hsame
            have hentry := hnumbered.eq_of_slot_eq hlength (SymbolTable.mem_of_lookup hother)
              (SymbolTable.mem_of_lookup hlookup) (UInt32.toNat_inj.mp hsame.symm)
            exact hne (Prod.mk.inj hentry).1
          exact Array.getElem?_setIfInBounds_ne hslot
  next => cases hwrite

/-- A read depends on the slot of the name only. -/
theorem Memory.read_slots_congr {table table' : SymbolTable} {name : String}
    (hlookup : table'.lookup name = table.lookup name) (store : Array Value) :
    slots.read table' name store = slots.read table name store := by
  simp only [slots, hlookup]

/-! ## Single instructions -/

section

variable {m : CodeModule} {exits : MachineState → Prop} {table : SymbolTable} {position : Nat}
  {store : Array Value} {stack : List Value}

theorem Loads.settles {value : Expression} {type : ValueType}
    (hload : Loads m table position value type) (htypes : m.Types store)
    (hrest : ∀ v, Memory.slots.value table value store = some v → v.type = type →
      m.Settles exits ⟨position + 1, v :: stack, store⟩) :
    m.Settles exits ⟨position, stack, store⟩ := by
  obtain ⟨v, hvalue, htype, hstep⟩ := hload.step htypes
  refine .of_next ?_ (hstep stack) (hrest v hvalue htype)
  cases hload with
  | string text span index hcode => exact CodeModule.addsInRange_of_ne hcode nofun
  | integer n span index hcode => exact CodeModule.addsInRange_of_ne hcode nofun
  | name name span symbol hlookup hslot hcode => exact CodeModule.addsInRange_of_ne hcode nofun

theorem Loads.settles_integer {value : Expression} (hload : Loads m table position value .int)
    (htypes : m.Types store)
    (hrest : ∀ n, Memory.slots.value table value store = some (.int n) →
      m.Settles exits ⟨position + 1, .int n :: stack, store⟩) :
    m.Settles exits ⟨position, stack, store⟩ := by
  refine hload.settles htypes fun v hvalue htype => ?_
  cases v with
  | int n => exact hrest n hvalue
  | string text => cases htype

theorem Stores.settles {name : String} {value : Value}
    (hstore : Stores m table position name value.type) (htypes : m.Types store)
    (hrest : ∀ store', Memory.slots.write table name value store = some store' →
      m.Types store' → m.Settles exits ⟨position + 1, stack, store'⟩) :
    m.Settles exits ⟨position, value :: stack, store⟩ := by
  obtain ⟨store', hwrite, htypes', hstep⟩ := hstore.step htypes
  obtain ⟨symbol, -, -, -, hcode⟩ := hstore
  exact .of_next (CodeModule.addsInRange_of_ne hcode nofun) (hstep stack)
    (hrest store' hwrite htypes')

/-- One load and one store carry out an assignment. -/
theorem settles_assign {name : String} {value : Expression} {type : ValueType}
    (hload : Loads m table position value type)
    (hstore : Stores m table (position + 1) name type) (htypes : m.Types store)
    (hrest : ∀ v store', v.type = type → Memory.slots.write table name v store = some store' →
      m.Types store' → m.Settles exits ⟨position + 2, [], store'⟩) :
    m.Settles exits ⟨position, [], store⟩ := by
  refine hload.settles htypes fun v _ htype => ?_
  subst htype
  exact hstore.settles htypes fun store' hwrite htypes' => hrest v store' rfl hwrite htypes'

/-- A line on the stack is written. -/
theorem settles_write {line : String} (hcall : m.code[position]? = some (.callHost .writeLine))
    (hrest : m.Settles exits ⟨position + 1, [], store⟩) :
    m.Settles exits ⟨position, [.string line], store⟩ := by
  have hstep : m.step ⟨position, [.string line], store⟩ =
      .write line ⟨position + 1, [], store⟩ := CodeModule.step_writeLine hcall
  refine .step (CodeModule.addsInRange_of_ne hcall nofun) ?_ ?_
  · rw [hstep]
    nofun
  · rw [hstep]
    rintro _ rfl
    exact hrest

/-- A line is read and stored as the integer that it spells, if it spells one. -/
theorem settles_read {name : String} (hread : m.code[position]? = some (.callHost .readLine))
    (hparse : m.code[position + 1]? = some (.callHost .parseInt))
    (hstore : Stores m table (position + 2) name .int) (htypes : m.Types store)
    (hrest : ∀ v store', Memory.slots.write table name v store = some store' →
      m.Types store' → m.Settles exits ⟨position + 3, [], store'⟩) :
    m.Settles exits ⟨position, [], store⟩ := by
  have hstep : m.step ⟨position, [], store⟩ = .read ⟨position + 1, [], store⟩ :=
    CodeModule.step_readLine hread
  refine .step (CodeModule.addsInRange_of_ne hread nofun) ?_ ?_
  · rw [hstep]
    nofun
  rw [hstep]
  rintro _ ⟨line, rfl⟩
  have hadd : m.AddsInRange ⟨position + 1, [.string line], store⟩ :=
    CodeModule.addsInRange_of_ne hparse nofun
  cases hn : parseInteger line with
  | none =>
      have hfault : m.step ⟨position + 1, [.string line], store⟩ =
          .fault (.invalidInteger line) := CodeModule.step_parseInt_none hparse hn
      refine .step hadd ?_ ?_
      · exact fun _ => by simp [MachineState.push, hfault]
      · simp [MachineState.push, hfault, Transition.LeadsTo]
  | some n =>
      refine .of_next hadd (CodeModule.step_parseInt hparse hn) ?_
      have hinteger : Stores m table (position + 2) name (Value.int n).type := hstore
      exact hinteger.settles htypes fun store' hwrite htypes' => hrest _ store' hwrite htypes'

/-! ## Loops -/

/-- The increment of an index that is not the greatest integer. -/
theorem settles_increment {index : String} {span : Span} {n : Int32}
    (hindex : Loads m table position (.name index span) .int)
    (hone : Loads m table (position + 1) (.integer 1 span) .int)
    (hadd : m.code[position + 2]? = some .addInt)
    (hnext : Stores m table (position + 3) index .int) (htypes : m.Types store)
    (hn : Memory.slots.read table index store = some (.int n)) (hlt : n < Int32.maxValue)
    (hrest : ∀ store', Memory.slots.write table index (.int (n + 1)) store = some store' →
      m.Types store' → m.Settles exits ⟨position + 4, [], store'⟩) :
    m.Settles exits ⟨position, [], store⟩ := by
  refine hindex.settles_integer htypes fun first hfirst => ?_
  refine hone.settles_integer htypes fun second hsecond => ?_
  have hvalue : some (Value.int n) = some (.int first) := hn.symm.trans hfirst
  cases hvalue
  cases hsecond
  refine .of_next (fun _ => ⟨n, [], rfl, hlt⟩) (CodeModule.step_addInt hadd) ?_
  have hinteger : Stores m table (position + 3) index (Value.int (n + 1)).type := hnext
  exact hinteger.settles htypes hrest

/-- The test of a loop.  If it leads back to the body, the index is not the greatest
integer. -/
theorem settles_test {index : String} {upper : Expression} {span : Span} {back : UInt32}
    {n : Int32} (hindex : Loads m table position (.name index span) .int)
    (hupper : Loads m table (position + 1) upper .int)
    (hbranch : m.code[position + 2]? = some (.branchIfLess back))
    (hback : back.toNat < m.code.size) (htypes : m.Types store)
    (hn : Memory.slots.read table index store = some (.int n))
    (hless : n < Int32.maxValue → m.Settles exits ⟨back.toNat, [], store⟩)
    (hdone : m.Settles exits ⟨position + 3, [], store⟩) :
    m.Settles exits ⟨position, [], store⟩ := by
  refine hindex.settles_integer htypes fun first hfirst => ?_
  refine hupper.settles_integer htypes fun bound _ => ?_
  have hvalue : some (Value.int n) = some (.int first) := hn.symm.trans hfirst
  cases hvalue
  refine .of_next (CodeModule.addsInRange_of_ne hbranch nofun)
    (CodeModule.step_branchIfLess hbranch hback) ?_
  by_cases hcompare : n < bound
  · rw [if_pos hcompare]
    refine hless (Int32.lt_iff_toInt_lt.mpr ?_)
    exact Int.lt_of_lt_of_le (Int32.lt_iff_toInt_lt.mp hcompare) bound.toInt_le
  · rw [if_neg hcompare]
    exact hdone

/-- One more than an integer that is not the greatest. -/
theorem toInt_add_one {n : Int32} (hlt : n < Int32.maxValue) : (n + 1).toInt = n.toInt + 1 := by
  have hle := n.le_toInt
  rw [Int32.lt_iff_toInt_lt, Int32.toInt_maxValue] at hlt
  rw [Int32.toInt_add, Int32.toInt_one]
  exact Int.bmod_eq_of_le (by omega) (by omega)

/-- The machine stands at a position with nothing on the stack, with its slots of the
declared types and good. -/
def CodeModule.StandsAt (m : CodeModule) (position : Nat) (good : Array Value → Prop)
    (state : MachineState) : Prop :=
  ∃ store, state = ⟨position, [], store⟩ ∧ m.Types store ∧ good store

/-- The rounds of a loop that counts its index up by one, from any value of the index. -/
theorem settles_rounds {index : String} (body : Nat) {tested stop : Nat}
    {good : Array Value → Prop}
    (htest : ∀ {exits : MachineState → Prop} (store : Array Value) (n : Int32), m.Types store →
      Memory.slots.read table index store = some (.int n) →
      (n < Int32.maxValue → m.Settles exits ⟨body, [], store⟩) →
      m.Settles exits ⟨stop, [], store⟩ → m.Settles exits ⟨tested, [], store⟩)
    (hround : ∀ (store : Array Value) (n : Int32), m.Types store → good store →
      Memory.slots.read table index store = some (.int n) → n < Int32.maxValue →
      m.Settles (m.StandsAt tested fun store' => good store' ∧
        Memory.slots.read table index store' = some (.int (n + 1))) ⟨body, [], store⟩)
    {n : Int32} (htypes : m.Types store) (hgood : good store)
    (hn : Memory.slots.read table index store = some (.int n)) :
    m.Settles (m.StandsAt stop good) ⟨tested, [], store⟩ := by
  -- The induction is on the room between the index and the greatest integer.
  induction hroom : (Int32.maxValue.toInt - n.toInt).toNat using Nat.strongRecOn
    generalizing n store with
  | ind room ih =>
      refine htest store n htypes hn ?_ (.exit ⟨store, rfl, htypes, hgood⟩)
      intro hlt
      refine (hround store n htypes hgood hn hlt).trans ?_
      rintro _ ⟨store', rfl, htypes', hgood', hn'⟩
      refine ih _ ?_ htypes' hgood' hn' rfl
      have hless := Int32.lt_iff_toInt_lt.mp hlt
      rw [toInt_add_one hlt]
      omega

/-! ## Statements -/

/-- The names that a statement does not bind have the values that they had before it. -/
def Statement.Keeps (statement : Statement) (table : SymbolTable) (store store' : Array Value) :
    Prop :=
  ∀ name, ¬ statement.Binds name →
    Memory.slots.read (statement.tableAfter table) name store' =
      Memory.slots.read table name store

/-- The first value of its index is all that a loop changes in front of its rounds. -/
theorem Statement.keeps_forLoop_of_write {index : String} {lower upper : Expression}
    {body : Statement} {span : Span} {v : Value} {store' : Array Value}
    (hnumbered : (table.declareIndex index).Numbered)
    (hlength : (table.declareIndex index).length ≤ UInt32.size)
    (hwrite : Memory.slots.write (table.declareIndex index) index v store = some store') :
    (forLoop index lower upper body span).Keeps table store store' := by
  intro name hname
  obtain ⟨hindex, hbody⟩ := not_or.mp hname
  have hne : name ≠ index := Ne.symm hindex
  obtain ⟨-, hothers⟩ := Memory.read_slots_of_write hnumbered hlength hwrite
  calc Memory.slots.read (body.tableAfter (table.declareIndex index)) name store'
      = Memory.slots.read (table.declareIndex index) name store' :=
        Memory.read_slots_congr (body.lookup_tableAfter_of_not_binds hbody _) store'
    _ = Memory.slots.read (table.declareIndex index) name store := hothers name hne
    _ = Memory.slots.read table name store :=
        Memory.read_slots_congr (table.lookup_declareIndex_of_ne hne) store

/-- One round of a loop, the body and then the increment.  It adds one to the index and
keeps what the loop keeps. -/
theorem settles_round {index : String} {lower upper : Expression} {body : Statement}
    {span : Span} {middle : Nat} {store₀ : Array Value} {n : Int32}
    (hbinds : ¬ body.Binds index)
    (hbody : m.Settles (m.StandsAt middle (body.Keeps (table.declareIndex index) store))
      ⟨position, [], store⟩)
    (hindex : Loads m (body.tableAfter (table.declareIndex index)) middle (.name index span) .int)
    (hone : Loads m (body.tableAfter (table.declareIndex index)) (middle + 1)
      (.integer 1 span) .int)
    (hadd : m.code[middle + 2]? = some .addInt)
    (hnext : Stores m (body.tableAfter (table.declareIndex index)) (middle + 3) index .int)
    (hnumbered : (body.tableAfter (table.declareIndex index)).Numbered)
    (hlength : (body.tableAfter (table.declareIndex index)).length ≤ UInt32.size)
    (hkeeps : (Statement.forLoop index lower upper body span).Keeps table store₀ store)
    (hn : Memory.slots.read (body.tableAfter (table.declareIndex index)) index store =
      some (.int n))
    (hlt : n < Int32.maxValue) :
    m.Settles (m.StandsAt (middle + 4) fun store' =>
        (Statement.forLoop index lower upper body span).Keeps table store₀ store' ∧
        Memory.slots.read (body.tableAfter (table.declareIndex index)) index store' =
          some (.int (n + 1)))
      ⟨position, [], store⟩ := by
  refine hbody.trans ?_
  rintro _ ⟨store₁, rfl, htypes₁, hbody⟩
  have hkept : ∀ name, ¬ body.Binds name →
      Memory.slots.read (body.tableAfter (table.declareIndex index)) name store₁ =
        Memory.slots.read (body.tableAfter (table.declareIndex index)) name store := by
    intro name hname
    rw [hbody name hname]
    exact (Memory.read_slots_congr (body.lookup_tableAfter_of_not_binds hname _) store).symm
  -- The index is one of the names that the body does not bind.
  have hn₁ := (hkept index hbinds).trans hn
  refine settles_increment hindex hone hadd hnext htypes₁ hn₁ hlt ?_
  intro store₂ hwrite htypes₂
  obtain ⟨hwritten, hothers⟩ := Memory.read_slots_of_write hnumbered hlength hwrite
  refine .exit ⟨store₂, rfl, htypes₂, ?_, hwritten⟩
  intro name hname
  obtain ⟨hne, hfree⟩ := not_or.mp hname
  calc Memory.slots.read (body.tableAfter (table.declareIndex index)) name store₂
      = Memory.slots.read (body.tableAfter (table.declareIndex index)) name store₁ :=
        hothers name (Ne.symm hne)
    _ = Memory.slots.read (body.tableAfter (table.declareIndex index)) name store :=
        hkept name hfree
    _ = Memory.slots.read table name store₀ := hkeeps name hname

/-- The code of a statement comes to its end, and keeps what the statement does not bind. -/
theorem Placed.settles {statement : Statement} {start stop : Nat}
    (hplaced : Placed m statement table start stop) (hindices : statement.LeavesIndices)
    (hnumbered : table.Numbered) (hlength : (statement.tableAfter table).length ≤ UInt32.size)
    (htypes : m.Types store) :
    m.Settles (m.StandsAt stop (statement.Keeps table store)) ⟨start, [], store⟩ := by
  induction hplaced generalizing store with
  | @sequence first second span table start middle stop hfirst hsecond ihfirst ihsecond =>
      have hmiddle : (first.tableAfter table).length ≤ UInt32.size :=
        Nat.le_trans (second.suffix_tableAfter (first.tableAfter table)).length_le hlength
      refine (ihfirst hindices.1 hnumbered hmiddle htypes).trans ?_
      rintro _ ⟨store₁, rfl, htypes₁, hkeeps₁⟩
      refine (ihsecond hindices.2 (hnumbered.tableAfter first) hlength htypes₁).trans ?_
      rintro _ ⟨store₂, rfl, htypes₂, hkeeps₂⟩
      refine .exit ⟨store₂, rfl, htypes₂, ?_⟩
      intro name hname
      obtain ⟨hname₁, hname₂⟩ := not_or.mp hname
      exact (hkeeps₂ name hname₂).trans (hkeeps₁ name hname₁)
  | @declare name value span table start type hload hstore =>
      refine settles_assign hload hstore htypes fun v store' _ hwrite htypes' => ?_
      refine .exit ⟨store', rfl, htypes', ?_⟩
      intro other hother
      have hne : other ≠ name := Ne.symm hother
      obtain ⟨-, hothers⟩ :=
        Memory.read_slots_of_write (hnumbered.declareValue name value) hlength hwrite
      exact (hothers other hne).trans
        (Memory.read_slots_congr (table.lookup_declareValue_of_ne value hne) store)
  | assign hload hstore =>
      refine settles_assign hload hstore htypes fun v store' _ hwrite htypes' => ?_
      refine .exit ⟨store', rfl, htypes', ?_⟩
      intro other hother
      exact (Memory.read_slots_of_write hnumbered hlength hwrite).2 other (Ne.symm hother)
  | printString hload hcall =>
      refine hload.settles htypes fun v _ htype => ?_
      cases v with
      | int n => cases htype
      | string text => exact settles_write hcall (.exit ⟨store, rfl, htypes, fun _ _ => rfl⟩)
  | printInteger hload hconvert hcall =>
      refine hload.settles_integer htypes fun n _ => ?_
      refine .of_next (CodeModule.addsInRange_of_ne hconvert nofun)
        (CodeModule.step_intToString hconvert) ?_
      exact settles_write hcall (.exit ⟨store, rfl, htypes, fun _ _ => rfl⟩)
  | readInt hread hparse hstore =>
      refine settles_read hread hparse hstore htypes fun v store' hwrite htypes' => ?_
      refine .exit ⟨store', rfl, htypes', ?_⟩
      intro other hother
      exact (Memory.read_slots_of_write hnumbered hlength hwrite).2 other (Ne.symm hother)
  | @forLoop index lower upper body span table start middle type entry back hlower hinit hjump
      hentry hbody hindex hone hadd hnext htest hupper hbranch hback ih =>
      obtain ⟨hbinds, hinner⟩ := hindices
      have hmiddle := hbody.lt
      have hsize := htest.lt_size
      have hdeclared := hnumbered.declareIndex index
      have hbefore : (table.declareIndex index).length ≤ UInt32.size :=
        Nat.le_trans (body.suffix_tableAfter (table.declareIndex index)).length_le hlength
      refine settles_assign hlower hinit htypes fun v store₁ _ hwrite htypes₁ => ?_
      have hkeeps : (Statement.forLoop index lower upper body span).Keeps table store store₁ :=
        Statement.keeps_forLoop_of_write hdeclared hbefore hwrite
      refine .of_next (CodeModule.addsInRange_of_ne hjump nofun)
        (CodeModule.step_jump hjump (by omega)) ?_
      rw [hentry]
      -- The first value of the index is an integer, as the test of the loop loads one.
      obtain ⟨first, hfirst, -⟩ := htest.step_integer htypes₁
      have hread : Memory.slots.read (body.tableAfter (table.declareIndex index)) index store₁ =
          some (.int first) := hfirst
      refine settles_rounds back.toNat ?_ ?_ htypes₁ hkeeps hread
      · intro exits store n htypes hn hless hdone
        exact settles_test htest hupper hbranch (by omega) htypes hn hless hdone
      · intro store₂ n htypes₂ hkeeps₂ hn hlt
        rw [hback]
        exact settles_round hbinds (ih hinner hdeclared hlength htypes₂) hindex hone hadd hnext
          (hdeclared.tableAfter body) hlength hkeeps₂ hn hlt

/-! ## Whole programs -/

/-- Every run of a compiled program settles at the return at its end. -/
theorem Statement.settles_start {program : Statement} {name : String}
    (hcompile : program.compile name = .ok m) (hsize : m.code.size ≤ UInt32.size)
    (hindices : program.LeavesIndices) : m.Settles m.AtReturn (MachineState.start m) := by
  obtain ⟨stop, hplaced, hret, -, hlength⟩ := program.placed_of_compile hcompile hsize
  refine (hplaced.settles hindices trivial hlength m.types_zero).trans ?_
  rintro _ ⟨store, rfl, -, -⟩
  exact .exit hret

/-- A compiled program whose loops leave their indices alone comes to its return or to a
runtime error, on every host, and every addition on the way adds one to an integer below the
greatest, without wrapping around. -/
theorem Statement.run_terminates {σ : Type} {program : Statement} {name : String}
    (hcompile : program.compile name = .ok m) (hsize : m.code.size ≤ UInt32.size)
    (hindices : program.LeavesIndices) (host : Host σ) (h : σ) :
    (∃ fuel,
      (∃ state h', m.run host fuel h = .finished state h' ∧
        m.code[state.position]? = some .ret) ∨
      ∃ error h', m.run host fuel h = .failed error h') ∧
    ∀ fuel state h', m.run host fuel h = .outOfFuel state h' →
      m.code[state.position]? = some .addInt →
      ∃ n rest, state.stack = .int 1 :: .int n :: rest ∧ n < Int32.maxValue ∧
        (n + 1).toInt = n.toInt + 1 := by
  have hsettles := program.settles_start hcompile hsize hindices
  refine ⟨hsettles.exists_end host h, ?_⟩
  intro fuel state h' hrun hadd
  obtain ⟨n, rest, hstack, hlt⟩ := hsettles.addsInRange hrun hadd
  exact ⟨n, rest, hstack, hlt, toInt_add_one hlt⟩

/-- A loop that starts two below the greatest integer and raises its own bound to it. -/
def Statement.risingBound : Statement :=
  .sequence (.declare "n" (.integer 2147483646 ⟨8, 18⟩) ⟨0, 18⟩)
    (.forLoop "i" (.integer 2147483645 ⟨28, 38⟩) (.name "n" ⟨42, 43⟩)
      (.sequence (.assign "n" (.integer 2147483647 ⟨51, 61⟩) ⟨47, 61⟩)
        (.print (.name "i" ⟨69, 70⟩) ⟨63, 70⟩) ⟨47, 70⟩) ⟨20, 75⟩) ⟨0, 75⟩

/-- The module of that program. -/
def CodeModule.risingBound : CodeModule where
  name := "risingBound"
  entry := "main"
  locals := #[.int, .int]
  constants := #[.int 2147483646, .int 2147483645, .int 2147483647, .int 1]
  code := #[.constant 0, .storeLocal 0, .constant 1, .storeLocal 1, .jump 14, .constant 2,
    .storeLocal 0, .loadLocal 1, .intToString, .callHost .writeLine, .loadLocal 1, .constant 3,
    .addInt, .storeLocal 1, .loadLocal 1, .loadLocal 0, .branchIfLess 5, .ret]

/-- That program comes to an end, and the last of its additions, after 27 steps, gives the
greatest integer. -/
theorem Statement.risingBound_run_terminates :
    Statement.risingBound.compile "risingBound" = .ok CodeModule.risingBound ∧
      CodeModule.risingBound.code.size ≤ UInt32.size ∧ Statement.risingBound.LeavesIndices ∧
      (∃ fuel,
        (∃ state h', CodeModule.risingBound.run Script.host fuel (Script.start [] none none) =
            .finished state h' ∧ CodeModule.risingBound.code[state.position]? = some .ret) ∨
        ∃ error h', CodeModule.risingBound.run Script.host fuel (Script.start [] none none) =
          .failed error h') ∧
      ∃ state h', CodeModule.risingBound.run Script.host 27 (Script.start [] none none) =
          .outOfFuel state h' ∧
        ∃ n rest, state.stack = .int 1 :: .int n :: rest ∧ n < Int32.maxValue ∧
          (n + 1).toInt = n.toInt + 1 := by
  have hcompile : Statement.risingBound.compile "risingBound" = .ok CodeModule.risingBound :=
    eq_ok_of_toOption (by decide +kernel)
  have hsize : CodeModule.risingBound.code.size ≤ UInt32.size := by decide
  have hindices : Statement.risingBound.LeavesIndices := by decide
  have hrun : CodeModule.risingBound.run Script.host 27 (Script.start [] none none) =
      .outOfFuel ⟨12, [.int 1, .int 2147483646], #[.int 2147483647, .int 2147483646]⟩
        { Script.start [] none none with
          events := #[.wrote "2147483645", .wrote "2147483646"]
          writes := 2 } := by with_unfolding_all rfl
  obtain ⟨hend, hadds⟩ := Statement.run_terminates hcompile hsize hindices Script.host
    (Script.start [] none none)
  exact ⟨hcompile, hsize, hindices, hend, _, _, hrun, hadds 27 _ _ hrun rfl⟩

end

end SlotLang
